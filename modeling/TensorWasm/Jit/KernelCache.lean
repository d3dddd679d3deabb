import TensorWasm.Jit.Kernel
import TensorWasm.Lib.Lru
import TensorWasm.Lib.Run

/-!
# The in-memory kernel cache

`KernelCache` of `tensor-wasm-jit/src/cache.rs`, one operation at a time: a map of kernels, a queue
of their keys in order of use, and a running count of PTX bytes. With no other operation running the
lock of the queue is always free, so `get` always promotes. The on-disk cache is the answer it gives
to a miss. Atomics are 64-bit words that wrap.

Two kernels of the map may come to differ from what was put only by corruption of memory; `tamper`
is such an event, and `get` is there to notice it.
-/

namespace TensorWasm.Jit

open Lib

structure KernelCacheConfig where
  capacity : Nat
  maxTotalBytes : Option Nat
  verifyOnGet : Bool

structure KernelCache where
  storage : AList fun _ : CacheKey => CachedKernel
  lru : Lru CacheKey
  config : KernelCacheConfig
  totalBytes : Nat
  verifySkippedTotal : Nat
  cacheHitsTotal : Nat
  cacheMissesTotal : Nat
  integrityRejectTotal : Nat

/-- `fetch_add` and `fetch_sub` of an `AtomicU64`. -/
def fetchAdd (a b : Nat) : Nat := (a + b) % 2 ^ 64
def fetchSub (a b : Nat) : Nat := (a + (2 ^ 64 - b % 2 ^ 64)) % 2 ^ 64

namespace KernelCache

/-- A capacity below 1 is clamped to 1. -/
def withConfig (config : KernelCacheConfig) : KernelCache :=
  { storage := ∅,
    lru := Lru.empty (max config.capacity 1) (Nat.le_max_right _ _),
    config := { config with capacity := max config.capacity 1 },
    totalBytes := 0, verifySkippedTotal := 0, cacheHitsTotal := 0, cacheMissesTotal := 0,
    integrityRejectTotal := 0 }

/-- What an entry contributes to the byte total: the length of its text. -/
def entryBytes (kernel : CachedKernel) : Nat := kernel.ptx.text.utf8ByteSize

/-- The number of entries. -/
def len (c : KernelCache) : Nat := c.storage.keys.length

/-- Remove a key from the map and its bytes from the total. The queue is not touched. -/
def evictKey (c : KernelCache) (key : CacheKey) : KernelCache :=
  match c.storage.lookup key with
  | none => c
  | some removed =>
    { c with storage := c.storage.erase key,
             totalBytes := fetchSub c.totalBytes (entryBytes removed) }

/-- Pop least recently used keys and evict them while a condition holds and there are keys; the
first argument bounds the number of passes. -/
def evictWhile (full : KernelCache → Bool) : Nat → KernelCache → KernelCache
  | 0, c => c
  | passes + 1, c =>
    if full c then
      match c.lru.lruKey with
      | none => c
      | some victim => evictWhile full passes ({ c with lru := c.lru.popLru }.evictKey victim)
    else c

/-- The loops of the source run until their condition fails or the queue is empty; each pass pops a
key, so as many passes as there are keys are enough. -/
def evictLoop (full : KernelCache → Bool) (c : KernelCache) : KernelCache :=
  evictWhile full c.lru.order.length c

def overByteCap (cap : Nat) (c : KernelCache) : Bool := cap < c.totalBytes && 1 < c.len

def enforceByteCap (c : KernelCache) : KernelCache :=
  match c.config.maxTotalBytes with
  | none => c
  | some cap => if cap < c.totalBytes then c.evictLoop (overByteCap cap) else c

/-- The byte total after an insertion that may have replaced an entry. -/
def accountInsert (total : Nat) (kernel : CachedKernel) : Option CachedKernel → Nat
  | none => fetchAdd total (entryBytes kernel)
  | some replaced => fetchSub (fetchAdd total (entryBytes kernel)) (entryBytes replaced)

/-- Evict the key a push reports, unless it is the pushed key itself. -/
def dropEvicted (c : KernelCache) (key : CacheKey) : Option CacheKey → KernelCache
  | none => c
  | some evictedKey => if evictedKey ≠ key then c.evictKey evictedKey else c

/-- The insertion that `put` and the promotion of a disk hit share: the map, the byte total, the
queue, and the entry the queue gives up for the new one. -/
def enter (c : KernelCache) (key : CacheKey) (kernel : CachedKernel) : KernelCache :=
  let replaced := c.storage.lookup key
  let pushed := c.lru.push key
  { c with storage := c.storage.insert key kernel,
           totalBytes := accountInsert c.totalBytes kernel replaced,
           lru := pushed.1 }.dropEvicted key pushed.2

def overCapacity (c : KernelCache) : Bool := c.config.capacity < c.len

/-- Insert or replace a kernel; one whose hash does not match its text is dropped. -/
def put (blake3 : Bytes → Bytes) (c : KernelCache) (key : CacheKey) (kernel : CachedKernel) : KernelCache :=
  if !kernel.verifyIntegrity blake3 then c
  else
    let c := c.enter key kernel
    let c := if c.overCapacity then c.evictLoop overCapacity else c
    c.enforceByteCap

/-- An entry `get` refuses to return: the hash does not match, or, when the check is off, the hash
is all zero. -/
def rejected (blake3 : Bytes → Bytes) (verifyOnGet : Bool) (kernel : CachedKernel) : Bool :=
  if verifyOnGet then !kernel.verifyIntegrity blake3
  else kernel.integrityHash == List.replicate 32 0

/-- The counter of lookups that skip the check. -/
def countSkip (c : KernelCache) : KernelCache :=
  if c.config.verifyOnGet then c
  else { c with verifySkippedTotal := fetchAdd c.verifySkippedTotal 1 }

/-- Look a kernel up; `disk` is the answer of the on-disk cache, `none` for a miss, an error or no
such cache. -/
def get (blake3 : Bytes → Bytes) (c : KernelCache) (key : CacheKey)
    (disk : Option CachedKernel) : KernelCache × Option CachedKernel :=
  let c := { c with lru := c.lru.promote key }
  match c.storage.lookup key with
  | some kernel =>
    let c := c.countSkip
    if rejected blake3 c.config.verifyOnGet kernel then
      let c := c.evictKey key
      ({ c with integrityRejectTotal := fetchAdd c.integrityRejectTotal 1,
                cacheMissesTotal := fetchAdd c.cacheMissesTotal 1 }, none)
    else ({ c with cacheHitsTotal := fetchAdd c.cacheHitsTotal 1 }, some kernel)
  | none =>
    match disk with
    | some kernel =>
      let c := (c.enter key kernel).enforceByteCap
      ({ c with cacheHitsTotal := fetchAdd c.cacheHitsTotal 1 }, some kernel)
    | none => ({ c with cacheMissesTotal := fetchAdd c.cacheMissesTotal 1 }, none)

/-- An entry is overwritten in memory by one whose text has the same length. -/
def tamper (c : KernelCache) (key : CacheKey) (kernel : CachedKernel) : KernelCache :=
  match c.storage.lookup key with
  | none => c
  | some old =>
    if entryBytes kernel = entryBytes old then { c with storage := c.storage.insert key kernel }
    else c

end KernelCache

inductive CacheAction where
  | put (key : CacheKey) (kernel : CachedKernel)
  | get (key : CacheKey) (disk : Option CachedKernel)
  | tamper (key : CacheKey) (kernel : CachedKernel)

def KernelCache.step (blake3 : Bytes → Bytes) (c : KernelCache) : CacheAction → KernelCache
  | .put key kernel => c.put blake3 key kernel
  | .get key disk => (c.get blake3 key disk).1
  | .tamper key kernel => c.tamper key kernel

end TensorWasm.Jit
