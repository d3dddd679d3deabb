import TensorWasm.Api.RateLimit
import TensorWasm.Lib.TokenBucket

/-!
# What the rate limiter bounds

Each layer is a family of token buckets (`Lib.TokenBucket`), and the general bound on what a window of time
can take holds for a bucket whose refills are never dated back. The limiter does not see to that: a call
dates the refill with the time it read before it took the locks, and a call that was held up writes an
older anchor over a newer one, so that the time between the two is credited once more.

The bound holds in the runs where no call brings a stamp older than the anchors it finds (`Fresh`), with an
admission dated by its call's stamp; and in the runs where the clock still shows the stamp of the call that
enters (`Prompt`), with an admission dated by the clock.
-/

namespace TensorWasm.Api

open Lib
open BucketState (refill)
open Outcome (decidedAt stamp)
open Gate (init)

/-! ## One bucket as a token bucket -/

def BucketState.view (b : BucketState) : TokenBucket ℚ := ⟨b.tokens, asSecs b.lastRefill⟩

theorem asSecs_mono {m n : Nat} (h : m ≤ n) : asSecs m ≤ asSecs n := by
  unfold asSecs
  gcongr

theorem asSecs_le_iff {m n : Nat} : asSecs m ≤ asSecs n ↔ m ≤ n := by
  refine ⟨fun h => ?_, asSecs_mono⟩
  unfold asSecs at h
  rw [div_le_div_iff_of_pos_right (by norm_num)] at h
  exact_mod_cast h

theorem asSecs_sub {m n : Nat} (h : m ≤ n) : asSecs (n - m) = asSecs n - asSecs m := by
  unfold asSecs
  rw [Nat.cast_sub h, sub_div]

variable {burst qps : ℚ} {b : BucketState} {now : Nat}

/-- A refill that is not dated back is a refill of the token bucket. -/
theorem BucketState.view_refill (hqps : 0 ≤ qps) (hfresh : b.lastRefill ≤ now) :
    (b.refill burst qps now).view = b.view.refill burst qps (asSecs now) := by
  unfold refill BucketState.view TokenBucket.refill
  dsimp only
  rw [mul_comm qps, ← asSecs_sub hfresh]
  split
  · rfl
  · rename_i hnot
    -- no time has passed or there is no rate: nothing is added either way
    have hzero : asSecs (now - b.lastRefill) * qps = 0 := by
      rcases Nat.eq_zero_or_pos (now - b.lastRefill) with htime | htime
      · simp [htime, asSecs]
      · have hrate : qps = 0 := le_antisymm (not_lt.mp fun h => hnot ⟨htime, h⟩) hqps
        rw [hrate, mul_zero]
    rw [hzero, add_zero]

theorem BucketState.view_deduct (b : BucketState) : b.deduct.view = b.view.take := rfl

/-- The window's invariant for a key of a layer; a key without a bucket has let nothing through. -/
def KeyOk (burst qps : ℚ) (lo hi : Nat) (count : Nat) : Option BucketState → Prop
  | none => count = 0
  | some b => Window burst qps (asSecs lo) (asSecs hi) b.view count

/-- What the bucket of a key is after a call has been decided. -/
def BucketState.after (b : BucketState) (result : AdmitResult) : BucketState :=
  if result = .admitted then b.deduct else b

section Key

variable {burst qps : ℚ} {lo hi now count : Nat} {entry : Option BucketState} (h : KeyOk burst qps lo hi count entry)

include h

/-- The refilled bucket keeps the invariant, whether it was there before or not. -/
theorem KeyOk.refilled (hburst : 0 ≤ burst) (hqps : 0 ≤ qps) (hlo : lo ≤ hi)
    (hfresh : ∀ b, entry = some b → b.lastRefill ≤ now) :
    Window burst qps (asSecs lo) (asSecs hi) ((entry.getD (.full burst now)).refill burst qps now).view count := by
  have hsecs := asSecs_mono hlo
  cases entry with
  | none =>
    obtain rfl : count = 0 := h
    have hstart := Window.start hburst hqps hsecs (asSecs now)
    have hnow : (BucketState.full burst now).lastRefill ≤ now := Nat.le_refl _
    rw [Option.getD_none, BucketState.view_refill hqps hnow]
    exact hstart.refill hburst hqps hsecs (le_refl _)
  | some b =>
    have hold := hfresh b rfl
    rw [Option.getD_some, BucketState.view_refill hqps hold]
    exact Window.refill h hburst hqps hsecs (asSecs_mono hold)

/-- A decided call adds to the count of the window its stamp lies in. -/
theorem KeyOk.after (hburst : 0 ≤ burst) (hqps : 0 ≤ qps)
    (hlo : lo ≤ hi) (hfresh : ∀ b, entry = some b → b.lastRefill ≤ now) {result : AdmitResult}
    (hlevel : result = .admitted → 1 ≤ ((entry.getD (.full burst now)).refill burst qps now).tokens) :
    KeyOk burst qps lo hi
      ((if result = .admitted ∧ lo ≤ now ∧ now ≤ hi then 1 else 0) + count)
      (some (((entry.getD (.full burst now)).refill burst qps now).after result)) := by
  have hwindow := h.refilled hburst hqps hlo hfresh
  simp only [KeyOk, BucketState.after]
  by_cases hresult : result = .admitted
  · rw [if_pos hresult, BucketState.view_deduct]
    by_cases hin : lo ≤ now ∧ now ≤ hi
    · rw [if_pos ⟨hresult, hin⟩, Nat.add_comm]
      exact hwindow.take_inside (hlevel hresult) (asSecs_mono hin.1) (asSecs_mono hin.2)
    · rw [if_neg fun hboth => hin hboth.2, Nat.zero_add]
      refine hwindow.take_outside (hlevel hresult) fun hsecs => hin ?_
      exact ⟨asSecs_le_iff.mp hsecs.1, asSecs_le_iff.mp hsecs.2⟩
  · rw [if_neg hresult, if_neg fun hboth => hresult hboth.1, Nat.zero_add]
    exact hwindow

theorem KeyOk.bound (hburst : 0 ≤ burst) (hqps : 0 ≤ qps)
    (hlo : lo ≤ hi) : (count : ℚ) ≤ burst + qps * asSecs (hi - lo) := by
  rw [asSecs_sub hlo]
  cases entry with
  | none =>
    obtain rfl : count = 0 := h
    have hgain : 0 ≤ qps * (asSecs hi - asSecs lo) := mul_nonneg hqps (sub_nonneg.mpr (asSecs_mono hlo))
    simpa using add_nonneg hburst hgain
  | some b => exact Window.bound h hburst hqps (asSecs_mono hlo)

end Key

/-! ## Counting admissions -/

/-- The calls of some kind admitted in a stretch of time, by the time `time` gives to a call. -/
def countIn (time : Outcome → Nat) (lo hi : Nat) (kind : Outcome → Bool) (log : List Outcome) : Nat :=
  log.countP fun e => kind e && (e.result == .admitted && (decide (lo ≤ time e) && decide (time e ≤ hi)))

theorem countIn_cons (time : Outcome → Nat) (lo hi : Nat) (kind : Outcome → Bool) (e : Outcome)
    (log : List Outcome) : countIn time lo hi kind (e :: log) =
      (if kind e = true ∧ e.result = .admitted ∧ lo ≤ time e ∧ time e ≤ hi then 1 else 0) +
        countIn time lo hi kind log := by
  unfold countIn
  rw [List.countP_cons, Nat.add_comm]
  simp only [Bool.and_eq_true, beq_iff_eq, decide_eq_true_eq]

def ofPair (key : TokenId × TenantId) (e : Outcome) : Bool := decide (key = (e.token, e.tenant))

def ofToken (key : TokenId) (e : Outcome) : Bool := decide (key = e.token)

section Layer

variable {κ : Type} [DecidableEq κ] {burst qps : ℚ} {lo hi : Nat}

@[simp] theorem put_self (m : κ → Option BucketState) (k : κ) (b : BucketState) :
    put m k (some b) k = some b := Function.update_self _ _ _

theorem put_of_ne (m : κ → Option BucketState) {k k' : κ} (h : k' ≠ k) (o : Option BucketState) :
    put m k o k' = m k' := by
  cases o with
  | none => rfl
  | some b => exact Function.update_of_ne h _ _

/-- A decided call concerns the bucket of its own key, and the count of that key. -/
theorem keysOk_after {m : κ → Option BucketState} {k : κ} {kind : κ → Outcome → Bool} {e : Outcome}
    {log : List Outcome} (hburst : 0 ≤ burst) (hqps : 0 ≤ qps) (hlo : lo ≤ hi)
    (hm : ∀ k', KeyOk burst qps lo hi (countIn stamp lo hi (kind k') log) (m k'))
    (hkind : ∀ k', kind k' e = decide (k' = k)) (hfresh : ∀ b, m k = some b → b.lastRefill ≤ e.stamp)
    (hlevel : e.result = .admitted → 1 ≤ (((m k).getD (.full burst e.stamp)).refill burst qps e.stamp).tokens)
    (k' : κ) :
    KeyOk burst qps lo hi (countIn stamp lo hi (kind k') (e :: log))
      (put m k (some ((((m k).getD (.full burst e.stamp)).refill burst qps e.stamp).after e.result)) k') := by
  rw [countIn_cons, hkind]
  by_cases hk : k' = k
  · subst hk
    rw [put_self]
    simp only [decide_true, true_and]
    exact (hm k').after hburst hqps hlo hfresh hlevel
  · rw [put_of_ne m hk]
    simp only [hk, decide_false, Bool.false_eq_true, false_and, if_false, Nat.zero_add]
    exact hm k'

end Layer

/-! ## One call -/

namespace RateLimiter

variable (cfg : RateLimitConfig) (l : RateLimiter) (token : TokenId) (tenant : TenantId) (now : Nat)

/-- The bucket of the tenant layer the call decides on. -/
def tenantBucket : Option BucketState :=
  refilled cfg.perTenantDefault.isDisabled cfg.perTenantDefault.burst.toNat cfg.perTenantDefault.qps
    (l.perTenantBuckets (token, tenant)) now

def tokenBucket : Option BucketState :=
  refilled cfg.isTokenLayerDisabled cfg.burst.toNat cfg.qps.toNat (l.buckets token) now

theorem map_after_admitted (o : Option BucketState) :
    o.map (BucketState.after · .admitted) = o.map BucketState.deduct := rfl

theorem map_after_reject (o : Option BucketState) (secs : Nat) : o.map (BucketState.after · (.reject secs)) = o := by
  cases o <;> rfl

/-- Both layers store their refilled bucket, less a permit if the call is admitted. -/
theorem tryAdmit_limiter : (l.tryAdmit cfg token tenant now).1 =
    ⟨put l.buckets token ((l.tokenBucket cfg token now).map
        (BucketState.after · (l.tryAdmit cfg token tenant now).2)),
      put l.perTenantBuckets (token, tenant) ((l.tenantBucket cfg token tenant now).map
        (BucketState.after · (l.tryAdmit cfg token tenant now).2))⟩ := by
  unfold tryAdmit
  dsimp only
  split
  · rw [map_after_admitted, map_after_admitted]
    rfl
  · rw [map_after_reject, map_after_reject]
    rfl

theorem one_le_tokens {qps : ℚ} (h : (b.decision qps).admittable = true) : 1 ≤ b.tokens := by
  unfold BucketState.decision at h
  split at h
  · assumption
  · cases h

/-- An admitted call has found a permit in each layer. -/
theorem level_of_admitted (h : (l.tryAdmit cfg token tenant now).2 = .admitted) :
    (∀ b, l.tenantBucket cfg token tenant now = some b → 1 ≤ b.tokens) ∧
      ∀ b, l.tokenBucket cfg token now = some b → 1 ≤ b.tokens := by
  unfold tryAdmit at h
  dsimp only at h
  split at h
  · rename_i hall
    rw [List.all_append, Bool.and_eq_true] at hall
    constructor
    · intro b hb
      have htenant := hall.1
      rw [show refilled _ _ _ _ _ = some b from hb] at htenant
      exact one_le_tokens (by simpa using htenant)
    · intro b hb
      have htoken := hall.2
      rw [show refilled cfg.isTokenLayerDisabled _ _ _ _ = some b from hb] at htoken
      exact one_le_tokens (by simpa using htoken)
  · cases h

end RateLimiter

/-! ## Interleavings -/

/-- No call enters with a time stamp older than the anchor of a bucket it refills. -/
def Fresh (g : Gate) : GateAction → Prop
  | .enter i => ∀ c, g.pending[i]? = some c →
    (∀ b, g.limiter.perTenantBuckets (c.token, c.tenant) = some b → b.lastRefill ≤ c.now) ∧
      ∀ b, g.limiter.buckets c.token = some b → b.lastRefill ≤ c.now
  | .tick _ | .arrive _ _ => True

/-- A call enters while the clock still shows the time it has read. -/
def Prompt (g : Gate) : GateAction → Prop
  | .enter i => ∀ c, g.pending[i]? = some c → c.now = g.clock
  | .tick _ | .arrive _ _ => True

/-- The counts of one window, against the buckets of the layers that are switched on. -/
structure Counted (cfg : RateLimitConfig) (lo hi : Nat) (g : Gate) : Prop where
  perTenant : cfg.perTenantDefault.isDisabled = false → ∀ key,
    KeyOk cfg.perTenantDefault.burst.toNat cfg.perTenantDefault.qps lo hi
      (countIn stamp lo hi (ofPair key) g.log) (g.limiter.perTenantBuckets key)
  perToken : cfg.isTokenLayerDisabled = false → ∀ key,
    KeyOk cfg.burst.toNat cfg.qps.toNat lo hi
      (countIn stamp lo hi (ofToken key) g.log) (g.limiter.buckets key)

section Interleaving

variable {cfg : RateLimitConfig} {g : Gate} {lo hi : Nat}

/-- A fresh call is counted where its permit is taken. -/
theorem Counted.settle (h : Counted cfg lo hi g) (hqps : 0 ≤ cfg.perTenantDefault.qps) (hlo : lo ≤ hi)
    {i : Nat} {c : PendingCall} (hc : g.pending[i]? = some c) (hfresh : Fresh g (.enter i)) :
    Counted cfg lo hi (g.settle cfg i c) := by
  obtain ⟨hfreshTenant, hfreshToken⟩ := hfresh c hc
  have hlimiter := g.limiter.tryAdmit_limiter cfg c.token c.tenant c.now
  have hlevel := g.limiter.level_of_admitted cfg c.token c.tenant c.now
  refine ⟨?_, ?_⟩
  · intro hon key
    have hbucket : g.limiter.tenantBucket cfg c.token c.tenant c.now = some _ :=
      if_neg (Bool.not_eq_true _ ▸ hon)
    have hnext := keysOk_after
      (e := ⟨c.token, c.tenant, c.now, g.clock, (g.limiter.tryAdmit cfg c.token c.tenant c.now).2⟩)
      (Nat.cast_nonneg _) hqps hlo (h.perTenant hon) (fun _ => rfl) hfreshTenant
      (fun hadmitted => (hlevel hadmitted).1 _ hbucket) key
    unfold Gate.settle
    dsimp only
    rw [hlimiter, hbucket]
    exact hnext
  · intro hon key
    have hbucket : g.limiter.tokenBucket cfg c.token c.now = some _ :=
      if_neg (Bool.not_eq_true _ ▸ hon)
    have hnext := keysOk_after
      (e := ⟨c.token, c.tenant, c.now, g.clock, (g.limiter.tryAdmit cfg c.token c.tenant c.now).2⟩)
      (Nat.cast_nonneg _) (Nat.cast_nonneg _) hlo (h.perToken hon) (fun _ => rfl) hfreshToken
      (fun hadmitted => (hlevel hadmitted).2 _ hbucket) key
    unfold Gate.settle
    dsimp only
    rw [hlimiter, hbucket]
    exact hnext

theorem Counted.step (hqps : 0 ≤ cfg.perTenantDefault.qps) (hlo : lo ≤ hi) (a : GateAction)
    (h : Counted cfg lo hi g) (hfresh : Fresh g a) : Counted cfg lo hi (g.step cfg a) := by
  cases a with
  | tick nanos => exact ⟨h.perTenant, h.perToken⟩
  | arrive token tenant =>
    unfold Gate.step
    dsimp only
    split
    · -- with both layers switched off nothing is claimed
      rename_i hoff
      obtain ⟨htoken, htenant⟩ := Bool.and_eq_true _ _ ▸ hoff
      exact ⟨fun hon => (nomatch htenant.symm.trans hon), fun hon => (nomatch htoken.symm.trans hon)⟩
    · exact ⟨h.perTenant, h.perToken⟩
  | enter i =>
    unfold Gate.step
    dsimp only
    split
    · exact h
    · exact h.settle hqps hlo ‹_› hfresh

theorem Counted.init (cfg : RateLimitConfig) (lo hi : Nat) : Counted cfg lo hi init :=
  ⟨fun _ _ => rfl, fun _ _ => rfl⟩

end Interleaving

/-! ## Prompt calls are fresh -/

/-- Nothing is dated later than the clock shows, and decisions are dated alike by both times. -/
structure Dated (g : Gate) : Prop where
  pending : ∀ c ∈ g.pending, c.now ≤ g.clock
  perTenant : ∀ key b, g.limiter.perTenantBuckets key = some b → b.lastRefill ≤ g.clock
  perToken : ∀ key b, g.limiter.buckets key = some b → b.lastRefill ≤ g.clock
  log : ∀ e ∈ g.log, e.stamp = e.decidedAt

theorem lastRefill_after (b : BucketState) (result : AdmitResult) : (b.after result).lastRefill = b.lastRefill := by
  unfold BucketState.after
  split <;> rfl

theorem lastRefill_refilled {disabled : Bool} {entry : Option BucketState}
    (h : refilled disabled burst qps entry now = some b) : b.lastRefill = now := by
  unfold refilled at h
  split at h
  · cases h
  · cases h
    rfl

/-- Storing a bucket refilled at a time keeps the anchors below every later time. -/
theorem anchors_put {κ : Type} [DecidableEq κ] {m : κ → Option BucketState} {clock : Nat}
    (hm : ∀ key b, m key = some b → b.lastRefill ≤ clock) (hnow : now ≤ clock) {k : κ}
    {disabled : Bool} {result : AdmitResult} (key : κ) (b : BucketState)
    (hb : put m k ((refilled disabled burst qps (m k) now).map (BucketState.after · result)) key = some b) :
    b.lastRefill ≤ clock := by
  by_cases hk : key = k
  · subst hk
    cases hrefilled : refilled disabled burst qps (m key) now with
    | none =>
      rw [hrefilled] at hb
      exact hm key b hb
    | some b' =>
      rw [hrefilled, Option.map_some, put_self] at hb
      cases hb
      rw [lastRefill_after, lastRefill_refilled hrefilled]
      exact hnow
  · rw [put_of_ne m hk] at hb
    exact hm key b hb

section Prompt

variable {cfg : RateLimitConfig} {g : Gate}

theorem Dated.settle (h : Dated g) (i : Nat) {c : PendingCall} (hnow : c.now = g.clock) :
    Dated (g.settle cfg i c) := by
  have hlimiter := g.limiter.tryAdmit_limiter cfg c.token c.tenant c.now
  unfold Gate.settle
  dsimp only
  rw [hlimiter]
  refine ⟨?_, ?_, ?_, ?_⟩
  · intro c' hc'
    exact h.pending c' (List.mem_of_mem_eraseIdx hc')
  · exact anchors_put h.perTenant (Nat.le_of_eq hnow)
  · exact anchors_put h.perToken (Nat.le_of_eq hnow)
  · exact List.forall_mem_cons.mpr ⟨hnow, h.log⟩

/-- A prompt step keeps the dates in order, and no anchor is later than its stamp. -/
theorem Dated.step (a : GateAction) (h : Dated g) (hprompt : Prompt g a) : Dated (g.step cfg a) ∧ Fresh g a := by
  cases a with
  | tick nanos =>
    have hlater : g.clock ≤ g.clock + nanos := Nat.le_add_right _ _
    exact ⟨⟨fun c hc => (h.pending c hc).trans hlater, fun key b hb => (h.perTenant key b hb).trans hlater,
      fun key b hb => (h.perToken key b hb).trans hlater, h.log⟩, trivial⟩
  | arrive token tenant =>
    refine ⟨?_, trivial⟩
    unfold Gate.step
    dsimp only
    split
    · exact ⟨h.pending, h.perTenant, h.perToken, List.forall_mem_cons.mpr ⟨rfl, h.log⟩⟩
    · exact ⟨List.forall_mem_cons.mpr ⟨Nat.le_refl _, h.pending⟩, h.perTenant, h.perToken, h.log⟩
  | enter i =>
    constructor
    · unfold Gate.step
      dsimp only
      split
      · exact h
      · exact h.settle i (hprompt _ ‹_›)
    · intro c hc
      rw [hprompt c hc]
      exact ⟨fun b hb => h.perTenant _ b hb, fun b hb => h.perToken _ b hb⟩

theorem Dated.init : Dated init :=
  ⟨nofun, nofun, nofun, nofun⟩

end Prompt

/-! ## Rejections take nothing -/

/-- The permits of a key; a key without a bucket will get a full one. -/
def permits (burst : ℚ) (entry : Option BucketState) : ℚ := (entry.map BucketState.tokens).getD burst

/-- No bucket holds more than its layer's burst. -/
structure Bounded (cfg : RateLimitConfig) (l : RateLimiter) : Prop where
  perTenant : ∀ key b, l.perTenantBuckets key = some b → b.tokens ≤ cfg.perTenantDefault.burst.toNat
  perToken : ∀ key b, l.buckets key = some b → b.tokens ≤ cfg.burst.toNat

theorem tokens_refill_le (burst qps : ℚ) (b : BucketState) (now : Nat) : (b.refill burst qps now).tokens ≤ burst := by
  unfold refill
  dsimp only
  split <;> exact min_le_right _ _

theorem le_tokens_refill (h : b.tokens ≤ burst) (now : Nat) : b.tokens ≤ (b.refill burst qps now).tokens := by
  unfold refill
  dsimp only
  split
  · rename_i hrate
    have hsecs : 0 ≤ asSecs (now - b.lastRefill) := by
      unfold asSecs
      positivity
    exact le_min (le_add_of_nonneg_right (mul_nonneg hsecs (le_of_lt hrate.2))) h
  · exact le_min (le_refl _) h

theorem tokens_after_le (b : BucketState) (result : AdmitResult) : (b.after result).tokens ≤ b.tokens := by
  unfold BucketState.after
  split
  · exact sub_le_self _ zero_le_one
  · exact le_refl _

section Store

variable {κ : Type} [DecidableEq κ] {m : κ → Option BucketState} {k : κ} {disabled : Bool} {burst qps : ℚ}
  {now : Nat}

theorem bounded_put (hm : ∀ key b, m key = some b → b.tokens ≤ burst) (result : AdmitResult) (key : κ)
    (b : BucketState)
    (hb : put m k ((refilled disabled burst qps (m k) now).map (BucketState.after · result)) key = some b) :
    b.tokens ≤ burst := by
  by_cases hk : key = k
  · subst hk
    unfold refilled at hb
    split at hb
    · exact hm key b hb
    · rw [Option.map_some, put_self] at hb
      cases hb
      exact (tokens_after_le _ _).trans (tokens_refill_le _ _ _ _)
  · rw [put_of_ne m hk] at hb
    exact hm key b hb

/-- Storing a refilled bucket takes no permit from any key. -/
theorem permits_put (hm : ∀ key b, m key = some b → b.tokens ≤ burst) (key : κ) :
    permits burst (m key) ≤ permits burst (put m k (refilled disabled burst qps (m k) now) key) := by
  by_cases hk : key = k
  · subst hk
    unfold refilled
    split
    · exact le_refl _
    · rw [put_self]
      cases hentry : m key with
      | none => exact le_tokens_refill (b := .full burst now) (le_refl _) now
      | some b => exact le_tokens_refill (hm key b hentry) now
  · rw [put_of_ne m hk]

end Store

section Reject

variable {cfg : RateLimitConfig} {g : Gate}

theorem Bounded.step (h : Bounded cfg g.limiter) (a : GateAction) : Bounded cfg (g.step cfg a).limiter := by
  cases a with
  | tick nanos => exact h
  | arrive token tenant =>
    unfold Gate.step
    dsimp only
    split <;> exact h
  | enter i =>
    unfold Gate.step
    dsimp only
    split
    · exact h
    · rename_i c hc
      unfold Gate.settle
      dsimp only
      rw [RateLimiter.tryAdmit_limiter]
      exact ⟨bounded_put h.perTenant _, bounded_put h.perToken _⟩

theorem Bounded.run (cfg : RateLimitConfig) (actions : List GateAction) :
    Bounded cfg (init.run cfg actions).limiter := by
  have hinit : Bounded cfg init.limiter := ⟨fun _ _ h => (nomatch h), fun _ _ h => (nomatch h)⟩
  exact run_keeps (P := fun g : Gate => Bounded cfg g.limiter) (fun _ a h => h.step a) hinit actions

/-- A rejected call leaves every key of both layers at least the permits it had. -/
theorem Bounded.reject {l : RateLimiter} (h : Bounded cfg l) {token : TokenId} {tenant : TenantId} {secs : Nat}
    (hreject : (l.tryAdmit cfg token tenant now).2 = .reject secs) :
    (∀ key, permits cfg.perTenantDefault.burst.toNat (l.perTenantBuckets key) ≤
      permits cfg.perTenantDefault.burst.toNat ((l.tryAdmit cfg token tenant now).1.perTenantBuckets key)) ∧
    ∀ key, permits cfg.burst.toNat (l.buckets key) ≤
      permits cfg.burst.toNat ((l.tryAdmit cfg token tenant now).1.buckets key) := by
  rw [RateLimiter.tryAdmit_limiter, hreject, RateLimiter.map_after_reject, RateLimiter.map_after_reject]
  exact ⟨permits_put h.perTenant, permits_put h.perToken⟩

end Reject

/-! ## The bound -/

/-- At most `burst + qps * d` admissions in every stretch of time of length `d`, for each pair and each
token, by the layers that are switched on. -/
structure RateBound (cfg : RateLimitConfig) (time : Outcome → Nat) (g : Gate) : Prop where
  perTenant : cfg.perTenantDefault.isDisabled = false → ∀ key lo hi, lo ≤ hi →
    (countIn time lo hi (ofPair key) g.log : ℚ) ≤
      cfg.perTenantDefault.burst.toNat + cfg.perTenantDefault.qps * asSecs (hi - lo)
  perToken : cfg.isTokenLayerDisabled = false → ∀ key lo hi, lo ≤ hi →
    (countIn time lo hi (ofToken key) g.log : ℚ) ≤ cfg.burst.toNat + cfg.qps.toNat * asSecs (hi - lo)

theorem rateBound_of_fresh {cfg : RateLimitConfig} (hqps : 0 ≤ cfg.perTenantDefault.qps)
    {actions : List GateAction} (h : Along (Gate.step cfg) Fresh init actions) :
    RateBound cfg stamp (init.run cfg actions) := by
  have hcounted : ∀ lo hi, lo ≤ hi → Counted cfg lo hi (init.run cfg actions) := fun lo hi hlo =>
    h.keeps (fun _ a hc hf => hc.step hqps hlo a hf) (Counted.init cfg lo hi)
  refine ⟨?_, ?_⟩
  · intro hon key lo hi hlo
    exact ((hcounted lo hi hlo).perTenant hon key).bound (Nat.cast_nonneg _) hqps hlo
  · intro hon key lo hi hlo
    exact ((hcounted lo hi hlo).perToken hon key).bound (Nat.cast_nonneg _) (Nat.cast_nonneg _) hlo

theorem countIn_congr {time time' : Outcome → Nat} {log : List Outcome} (h : ∀ e ∈ log, time e = time' e)
    (lo hi : Nat) (kind : Outcome → Bool) : countIn time lo hi kind log = countIn time' lo hi kind log := by
  refine List.countP_congr ?_
  intro e he
  rw [h e he]

theorem rateBound_of_prompt {cfg : RateLimitConfig} (hqps : 0 ≤ cfg.perTenantDefault.qps)
    {actions : List GateAction} (h : Along (Gate.step cfg) Prompt init actions) :
    RateBound cfg decidedAt (init.run cfg actions) := by
  obtain ⟨-, hfresh⟩ := h.keeps_and (fun _ a hd hp => hd.step a hp) Dated.init
  have hdated : Dated (init.run cfg actions) :=
    h.keeps (fun _ a hd hp => (hd.step a hp).1) Dated.init
  have hbound := rateBound_of_fresh hqps hfresh
  refine ⟨?_, ?_⟩
  · intro hon key lo hi hlo
    rw [← countIn_congr hdated.log]
    exact hbound.perTenant hon key lo hi hlo
  · intro hon key lo hi hlo
    rw [← countIn_congr hdated.log]
    exact hbound.perToken hon key lo hi hlo

/-- **The rate bound.** It holds in every run without stale stamps, by the times the calls have read; in
every run of prompt calls it holds by the clock at the decisions. A rejected call takes no permit from
either layer in any run. -/
theorem rate_limit_bound (cfg : RateLimitConfig) (hqps : 0 ≤ cfg.perTenantDefault.qps)
    (actions : List GateAction) :
    (Along (Gate.step cfg) Fresh init actions → RateBound cfg stamp (init.run cfg actions)) ∧
    (Along (Gate.step cfg) Prompt init actions → RateBound cfg decidedAt (init.run cfg actions)) ∧
    ∀ token tenant now secs,
      ((init.run cfg actions).limiter.tryAdmit cfg token tenant now).2 = .reject secs →
      (∀ key, permits cfg.perTenantDefault.burst.toNat
          ((init.run cfg actions).limiter.perTenantBuckets key) ≤
        permits cfg.perTenantDefault.burst.toNat
          (((init.run cfg actions).limiter.tryAdmit cfg token tenant now).1.perTenantBuckets key)) ∧
      ∀ key, permits cfg.burst.toNat ((init.run cfg actions).limiter.buckets key) ≤
        permits cfg.burst.toNat
          (((init.run cfg actions).limiter.tryAdmit cfg token tenant now).1.buckets key) :=
  ⟨rateBound_of_fresh hqps, rateBound_of_prompt hqps, fun _ _ _ _ hreject => (Bounded.run cfg actions).reject hreject⟩

/-- One permit a second with a burst of one, in both layers. -/
def onePerSecond : RateLimitConfig := ⟨1, 1, ⟨1, 1⟩⟩

/-- Two prompt calls a second apart. -/
theorem rate_limit_bound_two_calls :
    RateBound onePerSecond decidedAt (init.run onePerSecond
      [.arrive 7 3, .enter 0, .tick 1000000000, .arrive 7 3, .enter 0]) := by
  refine (rate_limit_bound onePerSecond (by decide) _).2.1 ⟨trivial, ?_, trivial, trivial, ?_, trivial⟩
  · intro c hc
    cases hc
    rfl
  · intro c hc
    cases hc
    rfl

/-- A call reads the clock and is held up for a second. Another call is admitted after that second, the
first one then dates the anchors back, and a third call is credited the same second again: two admissions
at one instant, of calls that also read the clock at that instant. -/
theorem stale_stamp_breaks_bound :
    let g := init.run onePerSecond [.arrive 7 3, .enter 0, .arrive 7 3, .tick 1000000000, .arrive 7 3,
      .enter 0, .enter 0, .arrive 7 3, .enter 0]
    ¬ RateBound onePerSecond stamp g ∧ ¬ RateBound onePerSecond decidedAt g := by
  intro g
  have hbound : ∀ time : Outcome → Nat, countIn time 1000000000 1000000000 (ofPair (7, 3)) g.log = 2 →
      ¬ RateBound onePerSecond time g := by
    intro time hcount h
    have hle := h.perTenant (by decide) (7, 3) 1000000000 1000000000 (Nat.le_refl _)
    rw [hcount] at hle
    exact absurd hle (by decide +kernel)
  exact ⟨hbound _ (by decide +kernel), hbound _ (by decide +kernel)⟩

end TensorWasm.Api
