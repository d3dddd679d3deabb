import TensorWasm.Proof.ArtifactStore
import TensorWasm.Proof.SnapshotFormat
import TensorWasm.Snapshot.Reader

/-!
# What a restored snapshot satisfies

`Valid` is the one predicate behind the checks of all three ways to restore. The two that read an
artifact come down to the same function of the payload, so that they agree on it.
-/

namespace TensorWasm.Snapshots

open Lib Artifacts
open Traced (bind_result_ok quiet_result)

variable {B : Libraries} {F : Features} {R : SnapshotReader B} {clock : Clock}

/-! ## The predicate -/

/-- A snapshot is as old as the reader allows, or its age cannot be told. -/
def SnapshotReader.Fresh (R : SnapshotReader B) (clock : Clock) (metadata : SnapshotMetadata) : Prop :=
  ∀ maxAge now, R.maxAge = some maxAge → clock = .ok now → now < 2 ^ 64 →
    now ≤ metadata.createdUnixMs.toNat + maxAge

/-- The reader's replay policy. -/
def SnapshotReader.Admits (R : SnapshotReader B) (metadata : SnapshotMetadata) : Prop :=
  (∀ floor, R.minSequenceNo = some floor → floor ≤ metadata.sequenceNo) ∧
    ∀ nonce, R.expectedNonce = some nonce → metadata.nonce = some nonce

structure Valid (R : SnapshotReader B) (clock : Clock) (s : Snapshot) : Prop where
  magic : s.magic = snapshotMagic
  version : s.version = snapshotVersionV2 ∨ s.version = snapshotVersionV3
  wasmMemory : s.wasmMemory.length ≤ maxWasmMemoryBytes
  gpuMemory : s.gpuMemory.length ≤ maxGpuMemoryBytes
  registers : s.registers.length ≤ maxRegistersBytes
  crc32 : s.crc32 = payloadCrc32 B s.wasmMemory s.gpuMemory s.registers
  total : s.metadata.totalUncompressedBytes.toNat = s.wasmMemory.length + s.gpuMemory.length + s.registers.length
  fresh : R.Fresh clock s.metadata
  admitted : R.Admits s.metadata

/-! ## One lemma for each check -/

theorem checkBlobSize_ok {kind : String} {len max : Nat} : checkBlobSize kind len max = .ok () ↔ len ≤ max := by
  simp [checkBlobSize]

theorem checkBlobSizes_ok {wasmMemory gpuMemory registers : Bytes} :
    checkBlobSizes wasmMemory gpuMemory registers = .ok () ↔
      wasmMemory.length ≤ maxWasmMemoryBytes ∧ gpuMemory.length ≤ maxGpuMemoryBytes ∧
        registers.length ≤ maxRegistersBytes := by
  simp [checkBlobSizes, bind_eq_ok, Unique.exists_iff, checkBlobSize_ok]

namespace SnapshotReader

variable {s : Snapshot}

theorem checkMagic_ok : checkMagic s = .ok () ↔ s.magic = snapshotMagic := by
  simp [checkMagic]

theorem checkArtifactVersion_ok {what why : String} :
    checkArtifactVersion what why s = .ok () ↔ s.version = snapshotVersionV2 := by
  simp [checkArtifactVersion]

theorem checkCrc32_ok : checkCrc32 B s = .ok () ↔ s.crc32 = payloadCrc32 B s.wasmMemory s.gpuMemory s.registers := by
  simp [checkCrc32]

/-- The sum cannot overflow: it is compared with a number of 64 bits. -/
theorem checkTotal_ok :
    checkTotal s = .ok () ↔ s.metadata.totalUncompressedBytes.toNat =
      s.wasmMemory.length + s.gpuMemory.length + s.registers.length := by
  have hbound := s.metadata.totalUncompressedBytes.toNat_lt
  simp only [checkTotal, guard_eq_ok, ne_eq, not_not, and_true]
  omega

variable {metadata : SnapshotMetadata}

/-- A bound of more than 64 bits is cut to the largest number of 64 bits, which no age exceeds. -/
theorem checkFreshness_ok : R.checkFreshness clock metadata.createdUnixMs = .ok () ↔ R.Fresh clock metadata := by
  unfold checkFreshness Fresh
  cases R.maxAge with
  | none => exact ⟨fun _ _ _ h => (nomatch h), fun _ => rfl⟩
  | some maxAge =>
    cases clock with
    | error e => exact ⟨fun _ _ _ _ h => (nomatch h), fun _ => rfl⟩
    | ok now =>
      have hcut : (if maxAge < 2 ^ 64 then maxAge else 2 ^ 64 - 1) = min maxAge (2 ^ 64 - 1) := by
        split <;> omega
      simp only [hcut]
      constructor
      · intro h maxAge' now' hmax hclock hnow
        cases hmax
        cases hclock
        rw [if_neg (Nat.not_le.mpr hnow)] at h
        split at h
        · cases h
        · omega
      · intro hfresh
        split
        · rfl
        next hnow =>
        have hage := hfresh maxAge now rfl rfl (Nat.not_le.mp hnow)
        exact if_neg (by omega)

theorem checkSequenceNo_ok :
    R.checkSequenceNo metadata = .ok () ↔ ∀ floor, R.minSequenceNo = some floor → floor ≤ metadata.sequenceNo := by
  unfold checkSequenceNo
  cases R.minSequenceNo with
  | none => simp
  | some floor =>
    simp

theorem checkNonce_ok :
    R.checkNonce metadata = .ok () ↔ ∀ nonce, R.expectedNonce = some nonce → metadata.nonce = some nonce := by
  unfold checkNonce
  cases R.expectedNonce with
  | none => simp
  | some expected =>
    cases metadata.nonce with
    | none => simp
    | some actual =>
      simp only [Option.some.injEq, forall_eq']
      split
      · next h => exact ⟨fun _ => h, fun _ => rfl⟩
      · next h => exact ⟨fun hok => (nomatch hok), fun heq => absurd heq h⟩

theorem checkSnapshot_ok :
    R.checkSnapshot clock s = .ok () ↔
      (s.wasmMemory.length ≤ maxWasmMemoryBytes ∧ s.gpuMemory.length ≤ maxGpuMemoryBytes ∧
        s.registers.length ≤ maxRegistersBytes) ∧
      s.crc32 = payloadCrc32 B s.wasmMemory s.gpuMemory s.registers ∧
      s.metadata.totalUncompressedBytes.toNat = s.wasmMemory.length + s.gpuMemory.length + s.registers.length ∧
      R.Fresh clock s.metadata ∧ R.Admits s.metadata := by
  simp [checkSnapshot, checkReplay, bind_eq_ok, Unique.exists_iff, checkBlobSizes_ok, checkCrc32_ok, checkTotal_ok,
    checkFreshness_ok, checkSequenceNo_ok, checkNonce_ok, Admits]

/-- The magic, a version and the shared checks make a valid snapshot. -/
theorem valid_iff_checks (hversion : s.version = snapshotVersionV2 ∨ s.version = snapshotVersionV3) :
    Valid R clock s ↔ checkMagic s = .ok () ∧ R.checkSnapshot clock s = .ok () := by
  rw [checkMagic_ok, checkSnapshot_ok]
  constructor
  · intro h
    exact ⟨h.magic, ⟨h.wasmMemory, h.gpuMemory, h.registers⟩, h.crc32, h.total, h.fresh, h.admitted⟩
  · rintro ⟨hmagic, ⟨hwasm, hgpu, hregisters⟩, hcrc, htotal, hfresh, hadmitted⟩
    exact ⟨hmagic, hversion, hwasm, hgpu, hregisters, hcrc, htotal, hfresh, hadmitted⟩

/-! ## The artifact paths -/

/-- What is made of a payload that has been authenticated, whichever way. -/
def AcceptsPayload (R : SnapshotReader B) (clock : Clock) (payload : Bytes) (s : Snapshot) : Prop :=
  decodeSnapshot payload = .ok s ∧ s.version = snapshotVersionV2 ∧ Valid R clock s

theorem restorePayload_ok_iff {what why : String} {payload : Bytes} :
    (R.restorePayload clock what why payload).result = .ok s ↔ R.AcceptsPayload clock payload s := by
  have hvalid (hversion : s.version = snapshotVersionV2) :
      Valid R clock s ↔ checkMagic s = .ok () ∧ R.checkSnapshot clock s = .ok () :=
    valid_iff_checks (.inl hversion)
  simp [restorePayload, AcceptsPayload, bind_result_ok, Unique.exists_iff, checkArtifactVersion_ok,
    Traced.pure_eq_quiet]
  grind

variable {bytes payload : Bytes}

/-- Some key of the list makes the bytes an envelope. A key that fails for another reason than its tag
stops the search, but then no key can do better. -/
theorem decodeWithKeys_ok_iff {keys : List Block} :
    (R.decodeWithKeys bytes keys).result = .ok payload ↔
      ∃ key ∈ keys, IsEnvelope B.artifacts R.maxDecompressed key bytes payload := by
  induction keys with
  | nil => exact ⟨fun h => (nomatch h), fun ⟨_, hmem, _⟩ => nomatch hmem⟩
  | cons key keys ih =>
    unfold decodeWithKeys
    constructor
    · intro h
      cases hdecode : (decodeEnvelopeFromBytesWithCap B.artifacts bytes key R.maxDecompressed).result with
      | ok decoded =>
        rw [Traced.handle_of_ok hdecode] at h
        cases h
        exact ⟨key, List.mem_cons_self, decodeEnvelope_ok_iff.mp hdecode⟩
      | error e =>
        rw [Traced.handle_of_error hdecode] at h
        cases e with
        | badHmac =>
          obtain ⟨key', hmem, henvelope⟩ := ih.mp h
          exact ⟨key', List.mem_cons_of_mem _ hmem, henvelope⟩
        | notFound _ | badMagic | badVersion _ | hashMismatch _ _ | decompression _ | tooLarge _ _ | io =>
          cases h
    · rintro ⟨key', hmem, henvelope⟩
      have hwith : (decodeEnvelopeFromBytesWithCap B.artifacts bytes key R.maxDecompressed).result =
          .ok payload ∨ (decodeEnvelopeFromBytesWithCap B.artifacts bytes key R.maxDecompressed).result =
          .error .badHmac := henvelope.decode_with
      rcases hwith with hdecode | hdecode
      · rw [Traced.handle_of_ok hdecode]
      · rw [Traced.handle_of_error hdecode]
        rcases List.mem_cons.mp hmem with rfl | hmem
        · exact nomatch hdecode.symm.trans (decodeEnvelope_ok_iff.mpr henvelope)
        · exact ih.mpr ⟨key', hmem, henvelope⟩

/-- An envelope begins with the magic that the path looks for. -/
theorem isEnvelope_magic {P : Primitives} {cap : Nat} {key : Block}
    (h : IsEnvelope P cap key bytes payload) : bytes.take artifactMagic.length = artifactMagic := by
  obtain ⟨body, rfl, -⟩ := h.sealed
  rw [sealEnvelope, envelopeHeader, List.append_assoc, List.append_assoc, List.take_left]

theorem tryRestoreArtifactEnvelope_eq (hmagic : bytes.take artifactMagic.length = artifactMagic)
    (hkeys : R.candidateKeys ≠ []) :
    R.tryRestoreArtifactEnvelope clock bytes = (do
      let payload ← R.decodeWithKeys bytes R.candidateKeys
      let snapshot ← R.restorePayload clock "artifact envelope"
        "inner v3 is not accepted on the v4 path — no inner trailer is verified there" payload
      return some snapshot) := by
  rw [tryRestoreArtifactEnvelope, if_neg (not_not_intro hmagic), if_neg (by simpa using hkeys)]

theorem tryRestoreArtifactEnvelope_ok_iff :
    (R.tryRestoreArtifactEnvelope clock bytes).result = .ok (some s) ↔
      ∃ key ∈ R.candidateKeys, ∃ payload,
        IsEnvelope B.artifacts R.maxDecompressed key bytes payload ∧ R.AcceptsPayload clock payload s := by
  constructor
  · intro h
    unfold tryRestoreArtifactEnvelope at h
    split at h
    · cases h
    split at h
    · cases h
    obtain ⟨payload, hpayload, h⟩ := bind_result_ok.mp h
    obtain ⟨snapshot, haccepts, h⟩ := bind_result_ok.mp h
    obtain rfl := Option.some.inj (Except.ok.inj h)
    obtain ⟨key, hkey, henvelope⟩ := decodeWithKeys_ok_iff.mp hpayload
    exact ⟨key, hkey, payload, henvelope, restorePayload_ok_iff.mp haccepts⟩
  · rintro ⟨key, hkey, payload, henvelope, haccepts⟩
    rw [tryRestoreArtifactEnvelope_eq (isEnvelope_magic henvelope) (List.ne_nil_of_mem hkey)]
    refine bind_result_ok.mpr ⟨payload, decodeWithKeys_ok_iff.mpr ⟨key, hkey, henvelope⟩, ?_⟩
    exact bind_result_ok.mpr ⟨s, restorePayload_ok_iff.mpr haccepts, rfl⟩

/-- The path declines exactly the bytes that do not begin with the magic. -/
theorem tryRestoreArtifactEnvelope_none_iff :
    (R.tryRestoreArtifactEnvelope clock bytes).result = .ok none ↔
      bytes.take artifactMagic.length ≠ artifactMagic := by
  constructor
  · intro h hmagic
    unfold tryRestoreArtifactEnvelope at h
    rw [if_neg (not_not_intro hmagic)] at h
    split at h
    · cases h
    obtain ⟨payload, -, h⟩ := bind_result_ok.mp h
    obtain ⟨snapshot, -, h⟩ := bind_result_ok.mp h
    cases h
  · intro hmagic
    rw [tryRestoreArtifactEnvelope, if_pos hmagic]
    rfl

theorem restoreFromArtifactStore_ok_iff {D : DiskArtifactStore} {dir : Directory} {hash : ContentHash} :
    (R.restoreFromArtifactStore clock D dir hash).result = .ok s ↔
      ∃ payload, (D.get B.artifacts dir hash).result = .ok payload ∧ R.AcceptsPayload clock payload s := by
  simp [restoreFromArtifactStore, bind_result_ok, Traced.mapError, restorePayload_ok_iff]

/-! ## The inline path -/

theorem checkVersion_ok {isV3 : Bool} {version : UInt32} {zstdConsumed prefixLen : Nat} :
    checkVersion F isV3 version zstdConsumed prefixLen = .ok () ↔
      version = (if isV3 then snapshotVersionV3 else snapshotVersionV2) ∧ zstdConsumed = prefixLen := by
  unfold checkVersion
  split_ifs <;> simp_all

/-- What the inline path accepts, given where the frame ends and whether a trailer was verified. -/
theorem restoreFrame_ok_iff {isV3 : Bool} {authPrefix : Bytes} :
    (R.restoreFrame F clock isV3 authPrefix).result = .ok s ↔
      ∃ run, B.artifacts.zstd.decodeFrame authPrefix = .ok run ∧ run.fault = none ∧
        run.output.length ≤ R.maxDecompressed ∧ decodeSnapshot run.output = .ok s ∧
        run.consumed = authPrefix.length ∧
        s.version = (if isV3 then snapshotVersionV3 else snapshotVersionV2) ∧ Valid R clock s := by
  have hvalid (hversion : s.version = if isV3 then snapshotVersionV3 else snapshotVersionV2) :
      Valid R clock s ↔ checkMagic s = .ok () ∧ R.checkSnapshot clock s = .ok () := by
    refine valid_iff_checks ?_
    cases isV3 with
    | true => exact .inr hversion
    | false => exact .inl hversion
  simp only [restoreFrame, bind_result_ok, Traced.perform_result, quiet_result, mapError_eq_ok, guard_eq_ok,
    Unique.exists_iff, PUnit.default_eq_unit, checkVersion_ok, Traced.pure_eq_quiet, not_lt, and_true,
    Except.ok.injEq]
  refine exists_congr fun run => and_congr_right fun _ => ?_
  constructor
  · rintro ⟨decompressed, hread, hwithin, snapshot, hdecode, hmagic, ⟨hversion, hconsumed⟩, hchecks, rfl⟩
    obtain ⟨rfl, hfault⟩ := (readToEnd_ok hwithin).mp hread
    exact ⟨hfault, hwithin, hdecode, hconsumed, hversion, (hvalid hversion).mpr ⟨hmagic, hchecks⟩⟩
  · rintro ⟨hfault, hwithin, hdecode, hconsumed, hversion, h⟩
    obtain ⟨hmagic, hchecks⟩ := (hvalid hversion).mp h
    exact ⟨run.output, (readToEnd_ok hwithin).mpr ⟨rfl, hfault⟩, hwithin, s, hdecode, hmagic,
      ⟨hversion, hconsumed⟩, hchecks, rfl⟩

/-! ## All paths -/

theorem restore_ok_iff :
    (R.restore F clock bytes).result = .ok s ↔ bytes.length ≤ maxInputBytes ∧
      ((F.envelopes = true ∧ (R.tryRestoreArtifactEnvelope clock bytes).result = .ok (some s)) ∨
        ((F.envelopes = true → bytes.take artifactMagic.length ≠ artifactMagic) ∧
          ∃ isV3 prefixLen, (R.authenticate F bytes).result = .ok (isV3, prefixLen) ∧
            (R.restoreFrame F clock isV3 (bytes.take prefixLen)).result = .ok s)) := by
  unfold restore restoreEarly
  split
  · next hlong => exact ⟨fun hok => (nomatch hok), fun h => absurd h.1 (Nat.not_le_of_lt hlong)⟩
  next hshort =>
  rw [bind_result_ok]
  constructor
  · rintro ⟨early, hearly, h⟩
    refine ⟨Nat.le_of_not_lt hshort, ?_⟩
    cases early with
    | some snapshot =>
      cases h
      split at hearly
      · next hF => exact .inl ⟨hF, hearly⟩
      · cases hearly
    | none =>
      obtain ⟨⟨isV3, prefixLen⟩, hauth, hframe⟩ := bind_result_ok.mp h
      refine .inr ⟨fun hF => ?_, isV3, prefixLen, hauth, hframe⟩
      rw [if_pos hF] at hearly
      exact tryRestoreArtifactEnvelope_none_iff.mp hearly
  · rintro ⟨-, ⟨hF, hearly⟩ | ⟨hmagic, isV3, prefixLen, hauth, hframe⟩⟩
    · exact ⟨some s, by rw [if_pos hF]; exact hearly, rfl⟩
    · refine ⟨none, ?_, bind_result_ok.mpr ⟨(isV3, prefixLen), hauth, hframe⟩⟩
      split
      · next hF => exact tryRestoreArtifactEnvelope_none_iff.mpr (hmagic hF)
      · rfl

/-- A payload in an authentic envelope, whatever its size. -/
def Carries (B : Libraries) (key : Block) (bytes payload : Bytes) : Prop :=
  IsEnvelope B.artifacts payload.length key bytes payload

theorem isEnvelope_iff_carries {cap : Nat} {key : Block} :
    IsEnvelope B.artifacts cap key bytes payload ↔ Carries B key bytes payload ∧ payload.length ≤ cap :=
  ⟨fun h => ⟨⟨h.sealed, le_rfl⟩, h.within⟩, fun h => ⟨h.1.sealed, h.2⟩⟩

end SnapshotReader

open SnapshotReader in
/-- Whatever is restored is valid. An artifact is treated in the same way whether it comes in an envelope
or from a store, once the size caps are the same. -/
theorem restored_snapshots_are_valid (B : Libraries) (F : Features) (R : SnapshotReader B) (clock : Clock) :
    (∀ bytes s, (R.restore F clock bytes).result = .ok s → Valid R clock s) ∧
    (∀ bytes s, (R.tryRestoreArtifactEnvelope clock bytes).result = .ok (some s) → Valid R clock s) ∧
    (∀ D dir hash s, (R.restoreFromArtifactStore clock D dir hash).result = .ok s → Valid R clock s) ∧
    (∀ (D : DiskArtifactStore) (dir : Directory) (hash : ContentHash) (bytes file payload : Bytes)
      (key fileKey : Block), R.maxDecompressed = maxDecompressedLen →
      key ∈ R.candidateKeys → Carries B key bytes payload →
      D.openBlob B.artifacts dir hash = .ok (file, fileKey) → Carries B fileKey file payload →
      B.artifacts.blake3 payload = hash →
        (R.tryRestoreArtifactEnvelope clock bytes).result ≠ .ok none ∧
        ∀ s, (R.tryRestoreArtifactEnvelope clock bytes).result = .ok (some s) ↔
          (R.restoreFromArtifactStore clock D dir hash).result = .ok s) := by
  have hartifact : ∀ bytes s, (R.tryRestoreArtifactEnvelope clock bytes).result = .ok (some s) →
      Valid R clock s := by
    intro bytes s h
    obtain ⟨key, hkey, payload, henvelope, -, -, hvalid⟩ := tryRestoreArtifactEnvelope_ok_iff.mp h
    exact hvalid
  refine ⟨?_, hartifact, ?_, ?_⟩
  · intro bytes s h
    obtain ⟨-, ⟨-, hearly⟩ | ⟨-, isV3, prefixLen, -, hframe⟩⟩ := restore_ok_iff.mp h
    · exact hartifact bytes s hearly
    · obtain ⟨run, -, -, -, -, -, -, hvalid⟩ := restoreFrame_ok_iff.mp hframe
      exact hvalid
  · intro D dir hash s h
    obtain ⟨payload, -, -, -, hvalid⟩ := restoreFromArtifactStore_ok_iff.mp h
    exact hvalid
  · intro D dir hash bytes file payload key fileKey hcap hkey hcarries hopen hfile hhash
    refine ⟨fun h => tryRestoreArtifactEnvelope_none_iff.mp h (isEnvelope_magic hcarries), ?_⟩
    intro s
    rw [tryRestoreArtifactEnvelope_ok_iff, restoreFromArtifactStore_ok_iff, DiskArtifactStore.get, hopen,
      Traced.quiet_ok_bind]
    constructor
    · rintro ⟨key', -, payload', henvelope, haccepts⟩
      obtain rfl := hcarries.payload_unique henvelope
      refine ⟨payload, DiskArtifactStore.getBlob_ok_iff.mpr ⟨?_, hhash⟩, haccepts⟩
      exact isEnvelope_iff_carries.mpr ⟨hfile, hcap ▸ henvelope.within⟩
    · rintro ⟨payload', hget, haccepts⟩
      obtain ⟨henvelope, -⟩ := DiskArtifactStore.getBlob_ok_iff.mp hget
      obtain rfl := hfile.payload_unique henvelope
      refine ⟨key, hkey, payload, isEnvelope_iff_carries.mpr ⟨hcarries, ?_⟩, haccepts⟩
      exact hcap ▸ henvelope.within

/-! ## A small snapshot in a store -/

/-- Stored content; signatures and sums that are always zero. -/
def storedLibraries : Libraries where
  artifacts := storedPrimitives
  ed25519 :=
    { SigningKey := Unit
      VerifyingKey := Unit
      verifyingKey := id
      sign := fun _ _ => List.Vector.replicate 64 0
      verifyStrict := fun _ _ signature => signature = List.Vector.replicate 64 0 }
  crc32 _ := 0

/-- A reader with the cap of the store and one key. -/
def storedReader : SnapshotReader storedLibraries :=
  { SnapshotReader.new storedLibraries with hmacKey := some zeroBlock, maxDecompressed := maxDecompressedLen }

def smallMetadata : SnapshotMetadata where
  tenantId := 1
  instanceId := 2
  createdUnixMs := 3
  totalUncompressedBytes := 6
  sequenceNo := 0
  nonce := none

def smallSnapshot : Snapshot where
  magic := snapshotMagic
  version := snapshotVersionV2
  wasmMemory := [1, 2, 3]
  gpuMemory := [4, 5]
  registers := [6]
  metadata := smallMetadata
  crc32 := 0

theorem valid_smallSnapshot : Valid storedReader (.ok 0) smallSnapshot where
  magic := rfl
  version := .inl rfl
  wasmMemory := by decide
  gpuMemory := by decide
  registers := by decide
  crc32 := rfl
  total := rfl
  fresh := fun _ _ h => nomatch h
  admitted := ⟨fun _ h => (nomatch h), fun _ h => (nomatch h)⟩

def singleStore : DiskArtifactStore := ⟨SingleKeyProvider zeroBlock, defaultZstdLevel⟩

/-- What a store with one key opens after a put. -/
theorem openBlob_singleStore {payload body : Bytes} (hsize : payload.length ≤ maxPayloadLen)
    (hencode : storedPrimitives.zstd.encode defaultZstdLevel [payload] = .ok body) :
    singleStore.openBlob storedPrimitives (singleStore.put storedPrimitives ∅ payload).2 zeroBlock =
      .ok (sealEnvelope storedPrimitives zeroBlock zeroBlock body, zeroBlock) := by
  have hput : singleStore.put storedPrimitives ∅ payload = (.ok zeroBlock,
      AList.insert (blobName storedPrimitives zeroBlock zeroBlock)
        (sealEnvelope storedPrimitives zeroBlock zeroBlock body) ∅) :=
    DiskArtifactStore.put_eq (D := singleStore) hsize hencode ∅
  have hmem : blobName storedPrimitives zeroBlock zeroBlock ∈ AList.insert
      (blobName storedPrimitives zeroBlock zeroBlock)
      (sealEnvelope storedPrimitives zeroBlock zeroBlock body) (∅ : Directory) :=
    (AList.mem_insert _).mpr (.inl rfl)
  rw [hput, DiskArtifactStore.openBlob, DiskArtifactStore.resolveReadKey, DiskArtifactStore.resolveFrom_eq, ok_bind]
  simp only [singleStore, SingleKeyProvider, List.find?_cons, decide_eq_true hmem, Option.map_some,
    AList.lookup_insert]
  rfl

theorem restored_snapshots_are_valid_small :
    (storedReader.restoreFromArtifactStore (.ok 0) singleStore
      (singleStore.put storedPrimitives ∅ smallSnapshot.payload).2 zeroBlock).result = .ok smallSnapshot := by
  have hsize : smallSnapshot.payload.length ≤ maxPayloadLen :=
    (length_payload smallSnapshot).trans (by decide)
  have hencode : storedPrimitives.zstd.encode defaultZstdLevel [smallSnapshot.payload] =
      .ok (leBytes 8 smallSnapshot.payload.length ++ smallSnapshot.payload) :=
    stored_encode_single _ (hsize.trans_lt (by decide))
  have hcarries : SnapshotReader.Carries storedLibraries zeroBlock
      (sealEnvelope storedPrimitives zeroBlock zeroBlock
        (leBytes 8 smallSnapshot.payload.length ++ smallSnapshot.payload)) smallSnapshot.payload := by
    have henvelope := isEnvelope_seal storedZstd_lossless (P := storedPrimitives) zeroBlock hencode le_rfl
    have hflat : [smallSnapshot.payload].flatten = smallSnapshot.payload := List.append_nil _
    rw [hflat] at henvelope
    exact henvelope
  have hkey : zeroBlock ∈ storedReader.candidateKeys := List.mem_singleton_self zeroBlock
  have haccepts : storedReader.AcceptsPayload (.ok 0) smallSnapshot.payload smallSnapshot :=
    ⟨decodeSnapshot_payload (by decide) (by decide) (by decide), rfl, valid_smallSnapshot⟩
  obtain ⟨-, -, -, hagree⟩ :=
    restored_snapshots_are_valid storedLibraries ⟨true, true⟩ storedReader (.ok 0)
  obtain ⟨-, hiff⟩ := hagree singleStore _ zeroBlock _ _ _ zeroBlock zeroBlock rfl hkey hcarries
    (openBlob_singleStore hsize hencode) hcarries rfl
  refine (hiff smallSnapshot).mp (SnapshotReader.tryRestoreArtifactEnvelope_ok_iff.mpr ?_)
  exact ⟨zeroBlock, hkey, _, SnapshotReader.isEnvelope_iff_carries.mpr ⟨hcarries, hsize.trans (by decide)⟩, haccepts⟩

end TensorWasm.Snapshots
