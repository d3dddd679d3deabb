import TensorWasm.Proof.SnapshotAuth

/-!
# Snapshots survive a round trip

What a writer captures a reader with the matching key restores, as long as the bytes are within the limit
for inputs and are not taken for another form. The reader tells the forms apart by a few bytes at the two
ends, and a zstd frame may happen to have them.
-/

namespace TensorWasm.Snapshots

open Lib Artifacts List
open SnapshotWriter (new)

variable {B : Libraries} {F : Features} {W : SnapshotWriter B} {R : SnapshotReader B}
  {clock readClock : Clock} {state : InstanceState} {bytes : Bytes} {s : Snapshot}

/-! ## What is captured -/

namespace SnapshotWriter

/-- The snapshot holds the state and the metadata that the writer has made for it. -/
structure Captures (W : SnapshotWriter B) (clock : Clock) (state : InstanceState) (s : Snapshot) : Prop where
  wasmMemory : s.wasmMemory = state.wasmMemory
  gpuMemory : s.gpuMemory = state.gpuMemory
  registers : s.registers = state.registers
  metadata : W.buildMetadata clock state = .ok (s.metadata, s.crc32)

/-- The length of what goes into the compressor. -/
def uncompressedLen (W : SnapshotWriter B) (state : InstanceState) : Nat :=
  84 + state.wasmMemory.length + state.gpuMemory.length + state.registers.length + (noncePiece W.nonce).length

theorem snapshotRef_ok {version : UInt32} (h : W.snapshotRef clock version state = .ok s) :
    s.magic = snapshotMagic ∧ s.version = version ∧ W.Captures clock state s := by
  obtain ⟨⟨metadata, crc32⟩, hmetadata, h⟩ := bind_eq_ok.mp h
  cases h
  exact ⟨rfl, rfl, rfl, rfl, rfl, hmetadata⟩

theorem buildMetadata_ok {metadata : SnapshotMetadata} {crc32 : UInt32}
    (h : W.buildMetadata clock state = .ok (metadata, crc32)) :
    checkBlobSizes state.wasmMemory state.gpuMemory state.registers = .ok () ∧
      metadata.totalUncompressedBytes = UInt64.ofNat
        (state.wasmMemory.length + state.gpuMemory.length + state.registers.length) ∧
      metadata.nonce = W.nonce ∧ crc32 = payloadCrc32 B state.wasmMemory state.gpuMemory state.registers := by
  obtain ⟨⟨⟩, hsizes, h⟩ := bind_eq_ok.mp h
  obtain ⟨createdUnixMs, -, h⟩ := bind_eq_ok.mp h
  cases h
  exact ⟨hsizes, rfl, rfl, rfl⟩

theorem Captures.length_payload (h : W.Captures clock state s) : s.payload.length = W.uncompressedLen state := by
  obtain ⟨-, -, hnonce, -⟩ := buildMetadata_ok h.metadata
  simp only [Snapshot.payload, Snapshot.pieces, flatten_cons, flatten_nil, length_append,
    length_leBytes, length_nil, hnonce, h.wasmMemory, h.gpuMemory, h.registers, uncompressedLen]
  omega

end SnapshotWriter

namespace SnapshotReader

/-- The reader has no freshness or replay filter. -/
structure Unfiltered (R : SnapshotReader B) : Prop where
  maxAge : R.maxAge = none
  minSequenceNo : R.minSequenceNo = none
  expectedNonce : R.expectedNonce = none

/-- Whatever is captured passes the checks of a reader without filters. -/
theorem Unfiltered.valid (hfilter : R.Unfiltered) (hmagic : s.magic = snapshotMagic)
    (hversion : s.version = snapshotVersionV2 ∨ s.version = snapshotVersionV3)
    (hcaptures : W.Captures clock state s) : Valid R readClock s := by
  obtain ⟨hsizes, htotal, -, hcrc⟩ := SnapshotWriter.buildMetadata_ok hcaptures.metadata
  obtain ⟨hwasm, hgpu, hregisters⟩ := checkBlobSizes_ok.mp hsizes
  refine ⟨hmagic, hversion, ?_, ?_, ?_, ?_, ?_, ?_, ?_, ?_⟩
  · rw [hcaptures.wasmMemory]
    exact hwasm
  · rw [hcaptures.gpuMemory]
    exact hgpu
  · rw [hcaptures.registers]
    exact hregisters
  · rw [hcaptures.wasmMemory, hcaptures.gpuMemory, hcaptures.registers]
    exact hcrc
  · -- the three caps together stay below 64 bits
    rw [hcaptures.wasmMemory, hcaptures.gpuMemory, hcaptures.registers, htotal]
    refine UInt64.toNat_ofNat_of_lt' ?_
    unfold maxWasmMemoryBytes at hwasm
    unfold maxGpuMemoryBytes at hgpu
    unfold maxRegistersBytes at hregisters
    rw [UInt64.size]
    omega
  · intro maxAge now h
    exact nomatch hfilter.maxAge.symm.trans h
  · intro floor h
    exact nomatch hfilter.minSequenceNo.symm.trans h
  · intro nonce h
    exact nomatch hfilter.expectedNonce.symm.trans h

theorem decodeSnapshot_valid (h : Valid R readClock s) : decodeSnapshot s.payload = .ok s :=
  decodeSnapshot_payload h.wasmMemory h.gpuMemory h.registers

/-- A frame that the writer has made is decoded to what went in. -/
theorem restoreFrame_encoded (hZ : B.artifacts.zstd.Lossless) {isV3 : Bool} {level : Int}
    {compressed : Bytes} (hencode : B.artifacts.zstd.encode level s.pieces = .ok compressed)
    (hcap : s.payload.length ≤ R.maxDecompressed) (hvalid : Valid R readClock s)
    (hversion : s.version = if isV3 then snapshotVersionV3 else snapshotVersionV2) :
    (R.restoreFrame F readClock isV3 compressed).result = .ok s := by
  obtain ⟨run, hrun, houtput, hfault, hconsumed⟩ := hZ.frame level s.pieces compressed [] hencode
  rw [append_nil] at hrun
  have houtput : run.output = s.payload := houtput
  refine restoreFrame_ok_iff.mpr ⟨run, hrun, hfault, ?_, ?_, hconsumed, hversion, hvalid⟩
  · rw [houtput]
    exact hcap
  · rw [houtput]
    exact decodeSnapshot_valid hvalid

end SnapshotReader

/-! ## The forms of a capture -/

namespace SnapshotWriter

theorem captureViaArtifactEnvelope_ok {key : Block} (h : W.captureViaArtifactEnvelope clock state key = .ok bytes) :
    ∃ s, W.snapshotRef clock snapshotVersionV2 state = .ok s ∧
      encodeEnvelopeToWriter B.artifacts s.payload key = .ok bytes := by
  obtain ⟨s, href, h⟩ := bind_eq_ok.mp h
  split at h
  · cases h
  next envelope hencode =>
  cases h
  exact ⟨s, href, hencode⟩

/-- The version that goes into an inline frame. -/
def inlineVersion (F : Features) (W : SnapshotWriter B) : UInt32 :=
  if (W.signingKey? F).isSome || (W.hmacKey? F).isSome then snapshotVersionV3 else snapshotVersionV2

theorem captureLegacy_ok (h : W.captureLegacy F clock state = .ok bytes) :
    ∃ s compressed, W.snapshotRef clock (inlineVersion F W) state = .ok s ∧
      B.artifacts.zstd.encode W.zstdLevel s.pieces = .ok compressed ∧ bytes = W.appendTrailer F compressed := by
  obtain ⟨s, href, h⟩ := bind_eq_ok.mp h
  split at h
  · cases h
  · cases h
  · cases h
  next compressed hencode =>
  cases h
  exact ⟨s, compressed, href, hencode, rfl⟩

/-- The reader has the key of what the writer makes, or takes it without one. -/
def TrustedBy (F : Features) (W : SnapshotWriter B) (R : SnapshotReader B) : Prop :=
  match W.envelopeKey F, W.signingKey? F, W.hmacKey? F with
  | some key, _, _ => key ∈ R.candidateKeys
  | none, some key, _ => R.ed25519VerifyingKey = some (B.ed25519.verifyingKey key)
  | none, none, some key => key ∈ R.candidateKeys
  | none, none, none => R.requireSignature = false

/-- The bytes are short enough to be read, and the ends of an inline capture are not those of another
form: no envelope, no trailer where there is none, and no Ed25519 trailer where there is one of HMAC. -/
structure Legible (F : Features) (W : SnapshotWriter B) (bytes : Bytes) : Prop where
  short : bytes.length ≤ maxInputBytes
  noEnvelope : W.envelopeKey F = none → F.envelopes = true → bytes.take artifactMagic.length ≠ artifactMagic
  noTrailer : W.envelopeKey F = none → W.signingKey? F = none → W.hmacKey? F = none →
    F.signedSnapshots = true → detectV3Trailer bytes = none
  noEd25519 : W.envelopeKey F = none → W.signingKey? F = none → (W.hmacKey? F).isSome = true →
    selfConsistent bytes .ed25519 = false

theorem signed_of_signingKey {key : B.ed25519.SigningKey} (h : W.signingKey? F = some key) :
    F.signedSnapshots = true := by
  unfold signingKey? at h
  split at h
  · next hsigned => exact hsigned
  · cases h

theorem signed_of_hmacKey {key : Block} (h : W.hmacKey? F = some key) : F.signedSnapshots = true := by
  unfold hmacKey? at h
  split at h
  · next hsigned => exact hsigned
  · cases h

/-- The reader makes out where the frame ends and whether it is signed. -/
theorem authenticate_appendTrailer (hE : B.ed25519.Correct) (compressed : Bytes)
    (henvelope : W.envelopeKey F = none) (htrust : TrustedBy F W R)
    (hlegible : Legible F W (W.appendTrailer F compressed)) :
    ∃ isV3 prefixLen, (R.authenticate F (W.appendTrailer F compressed)).result = .ok (isV3, prefixLen) ∧
      (W.appendTrailer F compressed).take prefixLen = compressed ∧
      inlineVersion F W = if isV3 then snapshotVersionV3 else snapshotVersionV2 := by
  unfold TrustedBy at htrust
  rw [henvelope] at htrust
  cases hsigning : W.signingKey? F with
  | some key =>
    rw [hsigning] at htrust
    have hverifies : R.Verifies .ed25519 (signedMessage compressed .ed25519)
        (B.ed25519.sign key (signedMessage compressed .ed25519)).toList :=
      ⟨_, htrust, List.Vector.toList_length _, hE key (signedMessage compressed .ed25519)⟩
    refine ⟨true, compressed.length, ?_, ?_, ?_⟩
    · simp only [appendTrailer, hsigning]
      exact SnapshotReader.authenticate_trailer (signed_of_signingKey hsigning) hverifies
        fun h => nomatch h
    · simp [appendTrailer, hsigning, signedMessage]
    · simp [inlineVersion, hsigning]
  | none =>
    cases hhmac : W.hmacKey? F with
    | some key =>
      rw [hsigning, hhmac] at htrust
      have hfirst := hlegible.noEd25519 henvelope hsigning (by rw [hhmac]; rfl)
      simp only [appendTrailer, hsigning, hhmac] at hfirst ⊢
      refine ⟨true, compressed.length, ?_, ?_, ?_⟩
      · exact SnapshotReader.authenticate_trailer (signed_of_hmacKey hhmac) ⟨key, htrust, rfl⟩
          fun _ => hfirst
      · simp [signedMessage]
      · simp [inlineVersion, hhmac]
    | none =>
      rw [hsigning, hhmac] at htrust
      have hnone := hlegible.noTrailer henvelope hsigning hhmac
      simp only [appendTrailer, hsigning, hhmac] at hnone ⊢
      refine ⟨false, compressed.length, ?_, take_length, ?_⟩
      · have hdetect : (if F.signedSnapshots then detectV3Trailer compressed else none) = none := by
          split
          · next hsigned => exact hnone hsigned
          · rfl
        simp only [SnapshotReader.authenticate, hdetect, htrust]
        rfl
      · simp only [inlineVersion, hsigning, hhmac]
        rfl

end SnapshotWriter

open SnapshotWriter in
/-- What is captured is restored, blob by blob and with its metadata. -/
theorem capture_restores (hZ : B.artifacts.zstd.Lossless) (hE : B.ed25519.Correct)
    (hcapture : W.capture F clock state = .ok bytes) (htrust : TrustedBy F W R)
    (hcap : W.uncompressedLen state ≤ R.maxDecompressed) (hfilter : R.Unfiltered)
    (hlegible : Legible F W bytes) :
    ∃ s, (R.restore F readClock bytes).result = .ok s ∧ W.Captures clock state s := by
  unfold capture at hcapture
  cases henvelope : W.envelopeKey F with
  | some key =>
    simp only [henvelope] at hcapture
    obtain ⟨s, href, hencode⟩ := captureViaArtifactEnvelope_ok hcapture
    obtain ⟨hmagic, hversion, hcaptures⟩ := snapshotRef_ok href
    have hvalid : Valid R readClock s := hfilter.valid hmagic (.inl hversion) hcaptures
    have hkey : key ∈ R.candidateKeys := by
      unfold TrustedBy at htrust
      rw [henvelope] at htrust
      exact htrust
    have hF : F.envelopes = true := by
      unfold envelopeKey at henvelope
      split at henvelope
      · next hgate =>
        simp only [Bool.and_eq_true] at hgate
        exact hgate.1.1
      · cases henvelope
    have hcarries : IsEnvelope B.artifacts R.maxDecompressed key bytes s.payload := by
      refine ⟨(isEnvelope_encode hZ hencode).sealed, ?_⟩
      rw [hcaptures.length_payload]
      exact hcap
    refine ⟨s, SnapshotReader.restore_ok_iff.mpr ⟨hlegible.short, .inl ⟨hF, ?_⟩⟩, hcaptures⟩
    exact SnapshotReader.tryRestoreArtifactEnvelope_ok_iff.mpr ⟨key, hkey, s.payload, hcarries,
      SnapshotReader.decodeSnapshot_valid hvalid, hversion, hvalid⟩
  | none =>
    simp only [henvelope] at hcapture
    obtain ⟨s, compressed, href, hencode, rfl⟩ := captureLegacy_ok hcapture
    obtain ⟨hmagic, hversion, hcaptures⟩ := snapshotRef_ok href
    obtain ⟨isV3, prefixLen, hauth, htake, hinline⟩ :=
      authenticate_appendTrailer hE compressed henvelope htrust hlegible
    have hversion := hversion.trans hinline
    have hallowed : s.version = snapshotVersionV2 ∨ s.version = snapshotVersionV3 := by
      cases isV3 with
      | true => exact .inr hversion
      | false => exact .inl hversion
    have hvalid : Valid R readClock s := hfilter.valid hmagic hallowed hcaptures
    refine ⟨s, SnapshotReader.restore_ok_iff.mpr ⟨hlegible.short, .inr ⟨?_, isV3, prefixLen, hauth, ?_⟩⟩, hcaptures⟩
    · exact hlegible.noEnvelope henvelope
    · rw [htake]
      refine SnapshotReader.restoreFrame_encoded hZ hencode ?_ hvalid hversion
      rw [hcaptures.length_payload]
      exact hcap

theorem stored_correct : storedLibraries.ed25519.Correct := by
  intro key message
  rfl

/-- A state without memory. -/
def emptyState (instanceId : BitVec 128) : InstanceState where
  tenantId := 1
  instanceId := instanceId
  wasmMemory := []
  gpuMemory := []
  registers := []

/-- A state with all three kinds of memory. -/
def smallState : InstanceState :=
  { emptyState 2 with wasmMemory := [1, 2, 3], gpuMemory := [4, 5], registers := [6] }

/-- A writer that signs its inline captures with HMAC. -/
def hmacWriter : SnapshotWriter storedLibraries :=
  { new storedLibraries with hmacKey := some zeroBlock, useLegacyEnvelope := true }

theorem storedReader_unfiltered : storedReader.Unfiltered := ⟨rfl, rfl, rfl⟩

open SnapshotWriter in
theorem capture_restores_hmac :
    ∃ bytes s, hmacWriter.capture ⟨true, true⟩ (.ok 0) smallState = .ok bytes ∧
      (storedReader.restore ⟨true, true⟩ (.ok 0) bytes).result = .ok s ∧
      hmacWriter.Captures (.ok 0) smallState s := by
  have hcapture : ∃ bytes, hmacWriter.capture ⟨true, true⟩ (.ok 0) smallState = .ok bytes ∧
      bytes.length ≤ maxInputBytes ∧ bytes.take artifactMagic.length ≠ artifactMagic ∧
      selfConsistent bytes .ed25519 = false :=
    ⟨_, rfl, by decide +kernel, by decide +kernel, by decide +kernel⟩
  obtain ⟨bytes, hcapture, hshort, hmagic, hfirst⟩ := hcapture
  have hlegible : Legible ⟨true, true⟩ hmacWriter bytes :=
    ⟨hshort, fun _ _ => hmagic, fun _ _ h => (nomatch h), fun _ _ _ => hfirst⟩
  have htrust : TrustedBy ⟨true, true⟩ hmacWriter storedReader := mem_singleton_self zeroBlock
  obtain ⟨s, hrestore, hcaptures⟩ := capture_restores storedZstd_lossless stored_correct hcapture htrust
    (by decide) storedReader_unfiltered hlegible
  exact ⟨bytes, s, hcapture, hrestore, hcaptures⟩

/-! ## Captures that are not restored -/

/-- Every capture of the state is restored. -/
def RoundTrips (F : Features) (W : SnapshotWriter B) (R : SnapshotReader B) (clock : Clock)
    (state : InstanceState) : Prop :=
  ∀ bytes, W.capture F clock state = .ok bytes →
    ∃ s, (R.restore F clock bytes).result = .ok s ∧ W.Captures clock state s

theorem not_roundTrips {e : TensorWasmError} (hcapture : W.capture F clock state = .ok bytes)
    (hrestore : (R.restore F clock bytes).result = .error e) : ¬ RoundTrips F W R clock state := by
  intro h
  obtain ⟨s, hok, -⟩ := h bytes hcapture
  exact nomatch hok.symm.trans hrestore

/-- A codec that writes something before each frame. -/
def headed (header : Bytes) (Z : Zstd) : Zstd where
  encode level pieces := do
    let c ← Z.encode level pieces
    return header ++ c
  decodeFrame bytes := (Z.decodeFrame (bytes.drop header.length)).map fun run =>
    { run with consumed := header.length + run.consumed }
  decodeFrames bytes := Z.decodeFrames (bytes.drop header.length)

theorem headed_lossless (header : Bytes) {Z : Zstd} (hZ : Z.Lossless) : (headed header Z).Lossless where
  frame level pieces c rest h := by
    obtain ⟨c', hencode, h⟩ := bind_eq_ok.mp h
    cases h
    obtain ⟨run, hrun, houtput, hfault, hconsumed⟩ := hZ.frame level pieces c' rest hencode
    refine ⟨{ run with consumed := header.length + run.consumed }, ?_, houtput, hfault, ?_⟩
    · simp only [headed, append_assoc, drop_left, hrun]
      rfl
    · rw [length_append, ← hconsumed]
  frames level pieces c h := by
    obtain ⟨c', hencode, h⟩ := bind_eq_ok.mp h
    cases h
    obtain ⟨run, hrun, houtput, hfault⟩ := hZ.frames level pieces c' hencode
    exact ⟨run, by simp [headed, hrun], houtput, hfault⟩

/-- The libraries of before, with frames that begin as an envelope does. -/
def headedLibraries : Libraries :=
  { storedLibraries with artifacts :=
      { storedPrimitives with zstd := headed artifactMagic storedZstd } }

/-- A reader for large snapshots. -/
def largeReader : SnapshotReader storedLibraries :=
  { SnapshotReader.new storedLibraries with maxDecompressed := 2 * maxGpuMemoryBytes }

/-- A state with GPU memory only. -/
def gpuState (n : Nat) : InstanceState := { emptyState 2 with gpuMemory := List.replicate n 0 }

/-- GPU memory may be larger than any input. -/
theorem gpuState_not_roundTrips {n : Nat} (hlong : maxInputBytes ≤ n) (hn : n ≤ maxGpuMemoryBytes) :
    ¬ RoundTrips ⟨true, true⟩ (new storedLibraries) largeReader (.ok 0) (gpuState n) := by
  have hsizes : checkBlobSizes [] (List.replicate n 0) [] = .ok () := by
    rw [checkBlobSizes_ok, length_replicate]
    exact ⟨Nat.zero_le _, hn, Nat.zero_le _⟩
  obtain ⟨s, href⟩ : ∃ s, (new storedLibraries).snapshotRef (.ok 0) snapshotVersionV2
      (gpuState n) = .ok s := by
    unfold SnapshotWriter.snapshotRef SnapshotWriter.buildMetadata
    simp only [gpuState, emptyState, hsizes]
    exact ⟨_, rfl⟩
  obtain ⟨-, -, hcaptures⟩ := SnapshotWriter.snapshotRef_ok href
  have hlength : n ≤ s.payload.length ∧ s.payload.length ≤ n + 101 := by
    rw [hcaptures.length_payload]
    simp only [SnapshotWriter.uncompressedLen, gpuState, emptyState, length_replicate, length_nil,
      new, noncePiece, length_singleton]
    omega
  have hencode : storedZstd.encode defaultZstdLevel s.pieces = .ok (leBytes 8 s.payload.length ++ s.payload) := by
    refine if_pos (hlength.2.trans_lt ?_)
    unfold maxGpuMemoryBytes at hn
    omega
  have hcapture : (new storedLibraries).capture ⟨true, true⟩ (.ok 0) (gpuState n) =
      .ok (leBytes 8 s.payload.length ++ s.payload) := by
    change (do
      let snapshot ← (new storedLibraries).snapshotRef (.ok 0) snapshotVersionV2 (gpuState n)
      _) = _
    rw [href, ok_bind]
    simp only [storedLibraries, storedPrimitives, new, hencode]
    rfl
  have htoolong : maxInputBytes < (leBytes 8 s.payload.length ++ s.payload).length := by
    rw [length_append, length_leBytes]
    omega
  intro h
  obtain ⟨restored, hok, -⟩ := h _ hcapture
  rw [SnapshotReader.restore, if_pos htoolong] at hok
  cases hok

/-- Captures that are not restored: one that ends as a signed one does, one under HMAC that ends as one
under Ed25519 does, one that begins as an envelope does, an unsigned one where signatures are required,
and one that is too long. -/
theorem captures_not_restored :
    storedZstd.Lossless ∧ (headed artifactMagic storedZstd).Lossless ∧ storedLibraries.ed25519.Correct ∧
    ¬ RoundTrips ⟨true, true⟩ (new storedLibraries) (SnapshotReader.new storedLibraries)
      (.ok 0) (emptyState 0x01315433530000000000000000) ∧
    ¬ RoundTrips ⟨true, true⟩ hmacWriter storedReader (.ok 0x0231)
      (emptyState 0x54335300000000000000000000000000) ∧
    ¬ RoundTrips ⟨true, true⟩ (new headedLibraries) (SnapshotReader.new headedLibraries)
      (.ok 0) (emptyState 2) ∧
    ¬ RoundTrips ⟨true, true⟩ (new storedLibraries)
      { SnapshotReader.new storedLibraries with requireSignature := true } (.ok 0) (emptyState 2) ∧
    ¬ RoundTrips ⟨true, true⟩ (new storedLibraries) largeReader (.ok 0)
      (gpuState maxInputBytes) := by
  refine ⟨storedZstd_lossless, headed_lossless _ storedZstd_lossless, stored_correct, ?_, ?_, ?_, ?_,
    gpuState_not_roundTrips le_rfl (by decide)⟩
  · refine not_roundTrips (e := .serialization "snapshot is signed (v3) but reader has no HMAC key") rfl ?_
    decide +kernel
  · refine not_roundTrips
      (e := .serialization "snapshot is Ed25519-signed (v3) but reader has no Ed25519 verifying key") rfl ?_
    decide +kernel
  · refine not_roundTrips
      (e := .serialization "snapshot is artifact-envelope (v4) but reader has no HMAC key") rfl ?_
    decide +kernel
  · refine not_roundTrips
      (e := .serialization "snapshot is unsigned (v2) but signature is required") rfl ?_
    decide +kernel

end TensorWasm.Snapshots
