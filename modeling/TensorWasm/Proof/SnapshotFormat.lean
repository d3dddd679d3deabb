import TensorWasm.Snapshot.Format

/-!
# bincode is lossless

What is written of a snapshot is read back as that snapshot, if its blobs are within their caps.
-/

namespace TensorWasm.Snapshots

open Lib Artifacts LimitedReader

theorem reads_uint32 (n : UInt32) : Reads uint32Reader (leBytes 4 n.toNat) n := by
  have hbound : n.toNat < 256 ^ 4 := n.toNat_lt
  have hread := (reads_number hbound).map (g := UInt32.ofNat)
  rwa [UInt32.ofNat_toNat] at hread

theorem reads_uint64 (n : UInt64) : Reads uint64Reader (leBytes 8 n.toNat) n := by
  have hbound : n.toNat < 256 ^ 8 := n.toNat_lt
  have hread := (reads_number hbound).map (g := UInt64.ofNat)
  rwa [UInt64.ofNat_toNat] at hread

theorem reads_uint128 (n : BitVec 128) : Reads uint128Reader (leBytes 16 n.toNat) n := by
  have hbound : n.toNat < 256 ^ 16 := n.isLt
  have hread := (reads_number hbound).map (g := BitVec.ofNat 128)
  rwa [BitVec.ofNat_toNat, BitVec.setWidth_eq] at hread

theorem reads_nonce (nonce : List.Vector UInt8 16) : Reads nonceReader nonce.toList nonce := by
  have hbytes := reads_take nonce.toList
  rw [nonce.toList_length] at hbytes
  have hread := hbytes.map (g := fun bytes =>
    (⟨bytes.takeD 16 0, List.takeD_length 16 bytes 0⟩ : List.Vector UInt8 16))
  have hsame : (⟨nonce.toList.takeD 16 0, List.takeD_length 16 nonce.toList 0⟩ : List.Vector UInt8 16) =
      nonce := by
    apply List.Vector.toList_injective
    change nonce.toList.takeD 16 0 = nonce.toList
    rw [List.takeD_eq_take _ nonce.toList_length.ge, List.take_of_length_le nonce.toList_length.le]
  rwa [hsame] at hread

variable (nonce : Option (List.Vector UInt8 16))

theorem reads_optional_nonce : Reads (option nonceReader) (noncePiece nonce) nonce := by
  cases nonce with
  | none => exact reads_none nonceReader
  | some nonce => exact (reads_nonce nonce).some

def metadataWord (m : SnapshotMetadata) : Bytes :=
  leBytes 8 m.tenantId.toNat ++ (leBytes 16 m.instanceId.toNat ++ (leBytes 8 m.createdUnixMs.toNat ++
    (leBytes 8 m.totalUncompressedBytes.toNat ++ (leBytes 8 m.sequenceNo.toNat ++ noncePiece m.nonce))))

theorem reads_metadata (m : SnapshotMetadata) : Reads metadataReader (metadataWord m) m := by
  refine (reads_uint64 m.tenantId).bind ?_
  refine (reads_uint128 m.instanceId).bind ?_
  refine (reads_uint64 m.createdUnixMs).bind ?_
  refine (reads_uint64 m.totalUncompressedBytes).bind ?_
  refine (reads_uint64 m.sequenceNo).bind ?_
  exact (reads_optional_nonce m.nonce).map

/-- The blobs have lengths that fit their counts. -/
structure Snapshot.Countable (s : Snapshot) : Prop where
  wasmMemory : s.wasmMemory.length < 256 ^ 8
  gpuMemory : s.gpuMemory.length < 256 ^ 8
  registers : s.registers.length < 256 ^ 8

theorem reads_snapshot {s : Snapshot} (h : s.Countable) : Reads snapshotReader s.payload s := by
  have hpayload : s.payload = leBytes 4 s.magic.toNat ++ (leBytes 4 s.version.toNat ++
        ((leBytes 8 s.wasmMemory.length ++ s.wasmMemory) ++ ((leBytes 8 s.gpuMemory.length ++ s.gpuMemory) ++
        ((leBytes 8 s.registers.length ++ s.registers) ++
        (metadataWord s.metadata ++ leBytes 4 s.crc32.toNat))))) := by
    simp [Snapshot.payload, Snapshot.pieces, metadataWord]
  rw [hpayload]
  refine (reads_uint32 s.magic).bind ?_
  refine (reads_uint32 s.version).bind ?_
  refine (reads_counted h.wasmMemory).bind ?_
  refine (reads_counted h.gpuMemory).bind ?_
  refine (reads_counted h.registers).bind ?_
  refine (reads_metadata s.metadata).bind ?_
  exact (reads_uint32 s.crc32).map

theorem length_noncePiece : (noncePiece nonce).length ≤ 17 := by
  cases nonce with
  | none | some nonce => simp [noncePiece]

/-- The envelope of a snapshot is small. -/
theorem length_payload (s : Snapshot) :
    s.payload.length ≤ s.wasmMemory.length + s.gpuMemory.length + s.registers.length + 101 := by
  have hnonce := length_noncePiece s.metadata.nonce
  simp only [Snapshot.payload, Snapshot.pieces, List.flatten_cons, List.flatten_nil, List.length_append,
    length_leBytes, List.length_nil]
  omega

/-- A snapshot whose blobs are within their caps is read back. -/
theorem decodeSnapshot_payload {s : Snapshot} (hwasm : s.wasmMemory.length ≤ maxWasmMemoryBytes)
    (hgpu : s.gpuMemory.length ≤ maxGpuMemoryBytes) (hregisters : s.registers.length ≤ maxRegistersBytes) :
    decodeSnapshot s.payload = .ok s := by
  have hcount : ∀ {n}, n ≤ maxGpuMemoryBytes → n < 256 ^ 8 := fun h => h.trans_lt (by decide)
  have hcountable : s.Countable :=
    ⟨hcount (hwasm.trans (by decide)), hcount hgpu, hcount (hregisters.trans (by decide))⟩
  have hlimit : s.payload.length ≤ maxTotalPayloadBytes := by
    have hlength := length_payload s
    unfold maxTotalPayloadBytes
    omega
  rw [decodeSnapshot, (reads_snapshot hcountable).all hlimit]

end TensorWasm.Snapshots
