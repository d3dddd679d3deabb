import TensorWasm.Exec.Arena
import TensorWasm.Jit.Kernel
import TensorWasm.Jit.Trampoline
import TensorWasm.Wasm.Exec

/-!
# The dispatch import

The third host function of `tensor-wasm-exec/src/jit_dispatch.rs`, on a build with CUDA, and the
linking of all three for a guest. The kernel cache is seen through its lookup; a launch is the
driver's, so what it leaves in memory (or that it failed) is a parameter. `usize` has 64 bits.
-/

namespace TensorWasm.Exec

open Jit Wasm

def dispatchOk : Int32 := 0
def dispatchCacheMiss : Int32 := -1
def dispatchBadScratch : Int32 := -2

/-- What `dispatch` closes over and reads from the store. A launch gets the kernel, the memory, and
the scratch address with both lengths; it answers with the contents of memory afterwards. -/
structure DispatchEnv where
  tenantId : UInt64
  smVersion : UInt32
  cache : CacheKey → Option CachedKernel
  launch : CachedKernel → Memory → Nat → Nat → Nat → Option (Nat → UInt8)
  growOk : Bool

/-- Put the two halves of a fingerprint together; sign extension is masked off. -/
def joinFingerprint (fingerprintLo fingerprintHi : Int64) : UInt64 :=
  let lo := fingerprintLo.toUInt64 &&& 0xFFFFFFFF
  let hi := fingerprintHi.toUInt64 &&& 0xFFFFFFFF
  lo ||| (hi <<< 32)

/-- `usize::checked_add`. -/
def checkedAddUsize (a b : Nat) : Option Nat := if a + b < 2 ^ 64 then some (a + b) else none

/-- The host's `dispatch`. -/
def dispatch (env : DispatchEnv) (fingerprintLo fingerprintHi : Int64)
    (scratchPtr argsLen resultsLen : Int32) (memory : Option Memory) : Option Memory × Int32 :=
  let fp := joinFingerprint fingerprintLo fingerprintHi
  match env.cache (CacheKey.forTenant env.tenantId fp env.smVersion) with
  | none => (memory, dispatchCacheMiss)
  | some cached =>
    if scratchPtr < 0 ∨ argsLen < 0 ∨ resultsLen < 0 then (memory, dispatchBadScratch)
    else
      match memory with
      | none =>
        if argsLen = 0 ∧ resultsLen = 0 then (none, dispatchOk) else (none, dispatchBadScratch)
      | some mem =>
        let scratch := scratchPtr.toUInt32.toNat
        let alen := argsLen.toUInt32.toNat
        let rlen := resultsLen.toUInt32.toNat
        match (checkedAddUsize scratch alen).bind (checkedAddUsize · rlen) with
        | none => (some mem, dispatchBadScratch)
        | some stop =>
          if stop > mem.len then (some mem, dispatchBadScratch)
          else
            match env.launch cached mem scratch alen rlen with
            | some contents => (some { mem with byte := contents }, dispatchOk)
            | none => (some mem, dispatchCacheMiss)

/-- What the imports were asked and answered, oldest first. -/
inductive HostEvent where
  | alloc (ret : Int32)
  | dispatch (seen : Memory) (ret : Int32)
  | free

/-- The part of the store the imports act on, with a record of the calls. -/
structure Store where
  arena : ArenaState
  events : List HostEvent

/-- The three imports, linked at their function indices. The guest's memory 0 is the one it exports
as `memory`. -/
def hostImports (env : DispatchEnv) (imports : DispatchImports) : ImportCall Store :=
  fun f stack memory store =>
    if f = imports.alloc then
      match stack with
      | .i32 size :: rest =>
        let (s, ret) := alloc size.toInt32 env.growOk ⟨store.arena, some memory⟩
        some (.i32 ret.toUInt32 :: rest, s.memory.getD memory, ⟨s.arena, store.events ++ [.alloc ret]⟩)
      | _ => none
    else if f = imports.dispatch then
      match stack with
      | .i32 rlen :: .i32 alen :: .i32 scratch :: .i64 hi :: .i64 lo :: rest =>
        let (mem, ret) := dispatch env lo.toInt64 hi.toInt64 scratch.toInt32 alen.toInt32
          rlen.toInt32 (some memory)
        some (.i32 ret.toUInt32 :: rest, mem.getD memory, ⟨store.arena, store.events ++ [.dispatch memory ret]⟩)
      | _ => none
    else if f = imports.free then
      match stack with
      | .i32 size :: .i32 ptr :: rest =>
        some (rest, memory, ⟨free ptr.toInt32 size.toInt32 store.arena, store.events ++ [.free]⟩)
      | _ => none
    else none

end TensorWasm.Exec
