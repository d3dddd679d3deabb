import TensorWasm.Exec.Arena
import TensorWasm.Jit.Kernel
import TensorWasm.Lib.Scan

/-!
# Launching a cached kernel

`launch_cached_kernel` of `tensor-wasm-exec/src/jit_dispatch.rs`: recover the entry symbol from the
PTX text, load the module, check that the scratch memory is managed, and pass geometry and
parameters to `cuLaunchKernel`. The driver's answers are parameters; the function's own part is the
request it makes of the driver. Addresses are 64-bit numbers.
-/

namespace TensorWasm.Exec

open Jit Lib

/-- The characters `str::trim_start` removes: those with the Unicode property `White_Space`. -/
def isWhiteSpace (c : Char) : Bool :=
  let n := c.toNat
  (0x9 ≤ n && n ≤ 0xD) || n == 0x20 || n == 0x85 || n == 0xA0 || n == 0x1680 ||
    (0x2000 ≤ n && n ≤ 0x200A) || n == 0x2028 || n == 0x2029 || n == 0x202F || n == 0x205F ||
    n == 0x3000

/-- `[A-Za-z0-9_$]`. -/
def isIdentChar (c : Char) : Bool := c.isAlphanum || c == '_' || c == '$'

/-- The entry symbol of emitted PTX: the identifier after the first `.entry`. -/
def ptxEntryName (ptx : String) : Option String :=
  match afterFirst ".entry".toList ptx.toList with
  | none => none
  | some after =>
    let name := (after.dropWhile isWhiteSpace).takeWhile isIdentChar
    if name = [] then none else some (String.ofList name)

/-- One entry of the `void**` parameter array: the number of bytes behind the pointer and the value
stored there. -/
structure KernelArg where
  width : Nat
  value : Nat

/-- What `cuLaunchKernel` is called with; both dimensions are `(x, 1, 1)`. -/
structure LaunchRequest where
  entry : String
  gridX : UInt32
  blockX : UInt32
  params : List KernelArg

/-- The third-party calls on the way, with the error texts they print. -/
structure Driver where
  ensureCurrentContext : Except String Unit
  moduleFromPtx : String → Except String Unit
  getFunction : String → String → Except String Unit
  /-- `IS_MANAGED` of an address: the status, whether it is success, and the answer. -/
  isManaged : Nat → String × Bool × Int
  newStream : Except String Unit
  /-- The status of a launch when it is not success. -/
  launchKernel : LaunchRequest → Except String Unit
  synchronize : Except String Unit

/-- Launch the cached kernel against the scratch region; the answer is the launch that ran. -/
def launchCachedKernel (drv : Driver) (cached : CachedKernel) (scratchBase scratch alen rlen : Nat) :
    Except String LaunchRequest := do
  drv.ensureCurrentContext.mapError fun e => s!"CUDA context bind failed: {e}"
  match ptxEntryName cached.ptx.text with
  | none => .error "PTX carries no `.entry` directive; cannot resolve kernel"
  | some entry =>
    (drv.moduleFromPtx cached.ptx.text).mapError fun e => s!"Module::from_ptx({entry}) failed: {e}"
    (drv.getFunction cached.ptx.text entry).mapError fun e => s!"get_function({entry}) failed: {e}"
    let scratchDevice := (scratchBase + scratch) % 2 ^ 64
    let (res, success, managed) := drv.isManaged scratchDevice
    if !success || managed = 0 then
      .error (s!"scratch pointer is not GPU-addressable (cuPointerGetAttribute " ++
        s!"IS_MANAGED -> {res}, is_managed={managed}); back guest linear " ++
        "memory with the unified-memory MemoryCreator")
    else
      let params := [⟨8, scratchDevice⟩, ⟨4, (clampU32 alen).toNat⟩, ⟨4, (clampU32 rlen).toNat⟩]
      let (blockHint, gridHint) := cached.ptx.launchGeometry
      let blockX := max blockHint 1
      let gridX := max gridHint 1
      drv.newStream.mapError fun e => s!"Stream::new failed: {e}"
      let request := ⟨entry, gridX, blockX, params⟩
      (drv.launchKernel request).mapError fun e => s!"cuLaunchKernel failed with status {e}"
      drv.synchronize.mapError fun e => s!"stream synchronize failed: {e}"
      .ok request

/-- A driver on which every call succeeds and every address is managed. -/
def Driver.healthy : Driver :=
  { ensureCurrentContext := .ok (), moduleFromPtx := fun _ => .ok (),
    getFunction := fun _ _ => .ok (), isManaged := fun _ => ("CUDA_SUCCESS", true, 1),
    newStream := .ok (), launchKernel := fun _ => .ok (), synchronize := .ok () }

/-- The request made for an entry symbol. -/
def launchRequest (entry : String) (geometry : UInt32 × UInt32) (scratchDevice alen rlen : Nat) :
    LaunchRequest :=
  { entry := entry, gridX := max geometry.2 1, blockX := max geometry.1 1,
    params := [⟨8, scratchDevice⟩, ⟨4, (clampU32 alen).toNat⟩, ⟨4, (clampU32 rlen).toNat⟩] }

/-- What a launch that ran asked the driver for. -/
theorem launchCachedKernel_eq_ok {drv : Driver} {cached : CachedKernel} {base scratch alen rlen : Nat}
    {request : LaunchRequest} (h : launchCachedKernel drv cached base scratch alen rlen = .ok request) :
    ∃ entry, ptxEntryName cached.ptx.text = some entry ∧
      request = launchRequest entry cached.ptx.launchGeometry ((base + scratch) % 2 ^ 64) alen
        rlen := by
  unfold launchCachedKernel at h
  obtain ⟨-, -, h⟩ := Lib.bind_eq_ok.mp h
  cases hentry : ptxEntryName cached.ptx.text with
  | none => rw [hentry] at h; exact nomatch h
  | some entry =>
    rw [hentry] at h
    obtain ⟨-, -, h⟩ := Lib.bind_eq_ok.mp h
    obtain ⟨-, -, h⟩ := Lib.bind_eq_ok.mp h
    dsimp only at h
    split at h
    · cases h
    · obtain ⟨-, -, h⟩ := Lib.bind_eq_ok.mp h
      obtain ⟨-, -, h⟩ := Lib.bind_eq_ok.mp h
      obtain ⟨-, -, h⟩ := Lib.bind_eq_ok.mp h
      exact ⟨entry, rfl, (Except.ok.inj h).symm⟩

theorem launchCachedKernel_healthy {cached : CachedKernel} {entry : String}
    (hentry : ptxEntryName cached.ptx.text = some entry) (base scratch alen rlen : Nat) :
    launchCachedKernel Driver.healthy cached base scratch alen rlen =
      .ok (launchRequest entry cached.ptx.launchGeometry ((base + scratch) % 2 ^ 64) alen rlen) := by
  unfold launchCachedKernel
  rw [hentry]
  rfl

end TensorWasm.Exec
