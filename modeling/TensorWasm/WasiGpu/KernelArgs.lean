import TensorWasm.Lib.Codec
import TensorWasm.WasiGpu.Abi

/-!
# Kernel arguments

`kernel_args.rs` of `tensor-wasm-wasi-gpu`: the typed arguments of a kernel launch as a buffer of records, each
a tag byte and the value in little-endian order. A float is given by its bits. Of the guest's memory the
parser uses its size and the address it starts at. For the launch the parsed values are laid out in one buffer in
the byte order of the host, with a table of their addresses.
-/

namespace TensorWasm.WasiGpu

open Lib

def maxKernelArgs : Nat := 128

def maxKernelArgsBytes : Nat := 4 * 1024

inductive ArgTag
  | i32 | i64 | f32 | f64 | u32 | u64 | ptr

namespace ArgTag

/-- `tag as u8`. -/
def toByte : ArgTag → UInt8
  | i32 => 0x01
  | i64 => 0x02
  | f32 => 0x03
  | f64 => 0x04
  | u32 => 0x05
  | u64 => 0x06
  | ptr => 0x07

def fromByte (b : UInt8) : Except AbiError ArgTag :=
  if b = 0x01 then .ok i32
  else if b = 0x02 then .ok i64
  else if b = 0x03 then .ok f32
  else if b = 0x04 then .ok f64
  else if b = 0x05 then .ok u32
  else if b = 0x06 then .ok u64
  else if b = 0x07 then .ok ptr
  else .error .invalidArgs

def valueBytes : ArgTag → Nat
  | i32 | f32 | u32 => 4
  | i64 | f64 | u64 => 8
  | ptr => 8

end ArgTag

inductive LoweredArg
  | i32 (v : Int32)
  | i64 (v : Int64)
  | f32 (bits : UInt32)
  | f64 (bits : UInt64)
  | u32 (v : UInt32)
  | u64 (v : UInt64)
  | ptr (hostPtr : Nat) (len guestOffset : UInt32)
  deriving DecidableEq

/-- An argument without the host pointer. -/
inductive LoweredArgSnapshot
  | i32 (v : Int32)
  | i64 (v : Int64)
  | f32 (bits : UInt32)
  | f64 (bits : UInt64)
  | u32 (v : UInt32)
  | u64 (v : UInt64)
  | ptr (len guestOffset : UInt32)
  deriving DecidableEq

def LoweredArg.snapshot : LoweredArg → LoweredArgSnapshot
  | i32 v => .i32 v
  | i64 v => .i64 v
  | f32 bits => .f32 bits
  | f64 bits => .f64 bits
  | u32 v => .u32 v
  | u64 v => .u64 v
  | ptr _ len guestOffset => .ptr len guestOffset

/-- The linear memory of the caller. -/
structure GuestMemory where
  base : Nat
  size : Nat

/-! ## Parsing -/

/-- `u32::from_le_bytes`. -/
def u32FromLe (bytes : Bytes) : UInt32 := UInt32.ofNat (ofLeBytes bytes)

/-- `u64::from_le_bytes`. -/
def u64FromLe (bytes : Bytes) : UInt64 := UInt64.ofNat (ofLeBytes bytes)

/-- The argument that the value bytes after a tag stand for. The end of a window is the sum of two 32-bit
numbers, which a `usize` holds. -/
def lowerArg (mem : GuestMemory) (tag : ArgTag) (val : Bytes) : Except AbiError LoweredArg :=
  match tag with
  | .i32 => .ok (.i32 (u32FromLe val).toInt32)
  | .i64 => .ok (.i64 (u64FromLe val).toInt64)
  | .f32 => .ok (.f32 (u32FromLe val))
  | .f64 => .ok (.f64 (u64FromLe val))
  | .u32 => .ok (.u32 (u32FromLe val))
  | .u64 => .ok (.u64 (u64FromLe val))
  | .ptr =>
    let guestOffset := u32FromLe (slice val 0 4)
    let len := u32FromLe (slice val 4 8)
    if mem.size < guestOffset.toNat + len.toNat then .error .invalidPointer
    else .ok (.ptr (mem.base + guestOffset.toNat) len guestOffset)

/-- The loop of `parse_argv`, with what is left of the buffer. -/
def parseRecords (mem : GuestMemory) (out : List LoweredArg) : Bytes → Except AbiError (List LoweredArg)
  | [] => .ok out
  | byte :: rest =>
    if maxKernelArgs ≤ out.length then .error .kernelArgsUnsupported
    else
      match ArgTag.fromByte byte with
      | .error e => .error e
      | .ok tag =>
        if rest.length < tag.valueBytes then .error .invalidArgs
        else
          match lowerArg mem tag (rest.take tag.valueBytes) with
          | .error e => .error e
          | .ok arg => parseRecords mem (out ++ [arg]) (rest.drop tag.valueBytes)
  termination_by buf => buf.length
  decreasing_by
    rw [List.length_drop, List.length_cons]
    omega

def parseArgv (buf : Bytes) (mem : GuestMemory) : Except AbiError (List LoweredArg) :=
  if maxKernelArgsBytes < buf.length then .error .kernelArgsUnsupported
  else parseRecords mem [] buf

/-! ## Encoding -/

def LoweredArg.tag : LoweredArg → ArgTag
  | i32 _ => .i32
  | i64 _ => .i64
  | f32 _ => .f32
  | f64 _ => .f64
  | u32 _ => .u32
  | u64 _ => .u64
  | ptr .. => .ptr

/-- The value bytes of an argument. -/
def LoweredArg.value : LoweredArg → Bytes
  | i32 v => leBytes 4 v.toUInt32.toNat
  | i64 v => leBytes 8 v.toUInt64.toNat
  | f32 bits => leBytes 4 bits.toNat
  | f64 bits => leBytes 8 bits.toNat
  | u32 v => leBytes 4 v.toNat
  | u64 v => leBytes 8 v.toNat
  | ptr _ len guestOffset => leBytes 4 guestOffset.toNat ++ leBytes 4 len.toNat

def encodeArgv (args : List LoweredArg) : Bytes := args.flatMap fun a => a.tag.toByte :: a.value

/-! ## Parameter storage -/

inductive ByteOrder
  | little | big

/-- `to_ne_bytes` of a value of `w` bytes. -/
def neBytes (order : ByteOrder) (w n : Nat) : Bytes :=
  match order with
  | .little => leBytes w n
  | .big => (leBytes w n).reverse

/-- `align_of` the type of the value, on a host of 64 bits. -/
def LoweredArg.align : LoweredArg → Nat
  | i32 _ | f32 _ | u32 _ => 4
  | i64 _ | f64 _ | u64 _ => 8
  | ptr .. => 8

/-- The bytes in a slot; of a pointer, its address on the host. -/
def LoweredArg.nativeBytes (order : ByteOrder) : LoweredArg → Bytes
  | i32 v => neBytes order 4 v.toUInt32.toNat
  | i64 v => neBytes order 8 v.toUInt64.toNat
  | f32 bits => neBytes order 4 bits.toNat
  | f64 bits => neBytes order 8 bits.toNat
  | u32 v => neBytes order 4 v.toNat
  | u64 v => neBytes order 8 v.toNat
  | ptr hostPtr _ _ => neBytes order 8 hostPtr

/-- `usize::wrapping_neg`. -/
def wrappingNeg (n : Nat) : Nat := (2 ^ 64 - n % 2 ^ 64) % 2 ^ 64

/-- The two vectors that the first pass fills. -/
structure ParamLayout where
  backing : Bytes
  offsets : List Nat

def ParamLayout.pushSlot (l : ParamLayout) (align : Nat) (bytes : Bytes) : ParamLayout :=
  let unpadded := l.backing.length
  let padding := wrappingNeg unpadded &&& (align - 1)
  let padded := l.backing ++ List.replicate padding 0
  ⟨padded ++ bytes, l.offsets ++ [padded.length]⟩

def layOut (order : ByteOrder) (args : List LoweredArg) : ParamLayout :=
  args.foldl (fun l a => l.pushSlot a.align (a.nativeBytes order)) ⟨[], []⟩

/-- The slots are addresses. -/
structure KernelParamStorage where
  backing : Bytes
  slots : List Nat

/-- The storage, where the allocator has put the buffer at `base`. -/
def buildKernelParamStorage (order : ByteOrder) (base : Nat) (args : List LoweredArg) : KernelParamStorage :=
  let l := layOut order args
  ⟨l.backing, l.offsets.map (base + ·)⟩

end TensorWasm.WasiGpu
