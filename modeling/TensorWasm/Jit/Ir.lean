import TensorWasm.Lib.Codec

/-!
# The kernel blueprint IR

`tensor-wasm-jit/src/ir.rs`: the contract between the detector, the block lowering, the PTX
emitter and the kernel cache. A blueprint is an entry name, a flat list of coarse vector ops and a
launch hint; everything downstream is a function of these fields.
-/

namespace TensorWasm.Jit

open Lib

/-- Element (lane) type of a SIMD vector op. -/
inductive ElemType where
  | i8 | i16 | i32 | i64 | f32 | f64
  deriving DecidableEq

namespace ElemType

/-- Width of one lane in bytes. -/
def byteWidth : ElemType → Nat
  | .i8 => 1
  | .i16 => 2
  | .i32 | .f32 => 4
  | .i64 | .f64 => 8

def isFloat : ElemType → Bool
  | .f32 | .f64 => true
  | _ => false

/-- The `Display` text, which reaches the emitted PTX through the per-op comment lines. -/
def display : ElemType → String
  | .i8 => "i8"
  | .i16 => "i16"
  | .i32 => "i32"
  | .i64 => "i64"
  | .f32 => "f32"
  | .f64 => "f64"

end ElemType

/-- One coarse-grained op of a kernel. `lanes` is a `u32` in the source. -/
inductive TensorWasmOp where
  | vecAdd (elem : ElemType) (lanes : UInt32)
  | vecMul (elem : ElemType) (lanes : UInt32)
  | vecFma (elem : ElemType) (lanes : UInt32)
  | matMul (m n k : UInt32)
  | loadUnified (elem : ElemType) (lanes : UInt32)
  | storeUnified (elem : ElemType) (lanes : UInt32)
  | barrier
  deriving DecidableEq

/-- Hint about CUDA launch geometry. -/
structure GridHint where
  totalThreads : UInt32
  preferredBlockSize : UInt32
  deriving DecidableEq

/-- `GridHint::default`. -/
def GridHint.default : GridHint := { totalThreads := 256, preferredBlockSize := 128 }

/-- `u32::div_ceil`. The quotient is at most the dividend, so it fits. -/
def divCeil (a b : UInt32) : UInt32 := UInt32.ofNat ((a.toNat + b.toNat - 1) / b.toNat)

/-- The `(grid_size, block_size)` pair of a hint, both floored at 1. -/
def GridHint.launchGeometry (h : GridHint) : UInt32 × UInt32 :=
  let block := max h.preferredBlockSize 1
  let grid := divCeil h.totalThreads block
  (max grid 1, block)

/-- A complete blueprint that the emitter can turn into PTX text. -/
structure TensorWasmKernelBlueprint where
  entry : String
  ops : List TensorWasmOp
  gridHint : GridHint
  sharedMemBytes : UInt32
  deriving DecidableEq

/-- `TensorWasmKernelBlueprint::new`: no ops, the default hint, no shared memory. -/
def TensorWasmKernelBlueprint.new (entry : String) : TensorWasmKernelBlueprint :=
  { entry := entry, ops := [], gridHint := GridHint.default, sharedMemBytes := 0 }

/-! ## Fingerprints

The digest is BLAKE3 over a canonical serialisation. The hash is a parameter; the serialisation is
the source's. -/

/-- Stable tag byte for fingerprinting. -/
def ElemType.fingerprintTag : ElemType → UInt8
  | .i8 => 0
  | .i16 => 1
  | .i32 => 2
  | .i64 => 3
  | .f32 => 4
  | .f64 => 5

/-- The tag, element type and lane count of a lane op. -/
def laneOpBytes (tag : UInt8) (elem : ElemType) (lanes : UInt32) : Bytes :=
  [tag, elem.fingerprintTag] ++ leBytes 4 lanes.toNat

def TensorWasmOp.digestBytes : TensorWasmOp → Bytes
  | .vecAdd elem lanes => laneOpBytes 0 elem lanes
  | .vecMul elem lanes => laneOpBytes 1 elem lanes
  | .vecFma elem lanes => laneOpBytes 2 elem lanes
  | .matMul m n k => [3] ++ leBytes 4 m.toNat ++ leBytes 4 n.toNat ++ leBytes 4 k.toNat
  | .loadUnified elem lanes => laneOpBytes 4 elem lanes
  | .storeUnified elem lanes => laneOpBytes 5 elem lanes
  | .barrier => [6]

/-- Everything `digest` feeds to the hasher, in order. -/
def TensorWasmKernelBlueprint.digestInput (bp : TensorWasmKernelBlueprint) : Bytes :=
  utf8Bytes "tensor-wasm-jit::ir::v2\x00" ++
  leBytes 8 bp.entry.utf8ByteSize ++ utf8Bytes bp.entry ++
  leBytes 8 bp.ops.length ++ bp.ops.flatMap TensorWasmOp.digestBytes ++
  leBytes 4 bp.gridHint.totalThreads.toNat ++ leBytes 4 bp.gridHint.preferredBlockSize.toNat ++
  leBytes 4 bp.sharedMemBytes.toNat

/-- The 64-bit fingerprint: the first eight digest bytes, little-endian. -/
def TensorWasmKernelBlueprint.fingerprint (blake3 : Bytes → Bytes) (bp : TensorWasmKernelBlueprint) : UInt64 :=
  UInt64.ofNat (ofLeBytes ((blake3 bp.digestInput).take 8))

end TensorWasm.Jit
