import TensorWasm.Proof.EmitRefinement
import TensorWasm.Proof.Launch
import TensorWasm.Proof.DiskCache
import TensorWasm.Proof.Digest
import TensorWasm.Proof.AutoOffload
import TensorWasm.Proof.LowerRun
import TensorWasm.Proof.Dialect
import TensorWasm.Proof.SnapshotRoundTrip
import TensorWasm.Proof.TenantQuota
import TensorWasm.Proof.TenantCapability
import TensorWasm.Proof.TenantInterleaving
import TensorWasm.Proof.DeviceMem
import TensorWasm.Proof.SlotHistory
import TensorWasm.Proof.PoolIsolation
import TensorWasm.Proof.RejectList
import TensorWasm.Proof.KernelArgs
import TensorWasm.Proof.PtxRegisters
import TensorWasm.Proof.TrampolineTrace
import TensorWasm.Proof.BlueprintAdapter
import TensorWasm.Proof.WasmMemory
import TensorWasm.Proof.BufferAccounting
import TensorWasm.Proof.RateLimit
import TensorWasm.Proof.ExecErrors
import TensorWasm.Proof.Gateway
import TensorWasm.Proof.BlockShape
import TensorWasm.Proof.EmitConfigKey
import TensorWasm.Proof.RegistryFallback
import TensorWasm.Proof.DiskGc
import TensorWasm.Proof.KernelParams
import TensorWasm.Proof.Completions
import TensorWasm.Proof.Middleware
import TensorWasm.Proof.RegistryListing
import TensorWasm.Proof.StreamWriter
import TensorWasm.Proof.JsonNumbers
import TensorWasm.Proof.Terminal
