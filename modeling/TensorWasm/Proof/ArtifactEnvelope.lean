import TensorWasm.Artifacts.Store

/-!
# What the envelope decoders accept

`IsEnvelope` says what an envelope of a payload is, without an order of checks: the header names the
payload's hash, the body decodes to it, the tag is the one of the key. The three decoders parse in their
own way, each with its own bounds; each accepts exactly the envelopes.
-/

namespace TensorWasm.Artifacts

open Lib List
open Traced (quiet_ok_bind bind_result_ok Only)
open DiskArtifactStore (getBlob getBlobTo)

variable {P : Primitives}

/-! ## Frames -/

/-- Three parts one after the other, whether the tag is right or not. -/
def frame (hash : ContentHash) (body tag : Bytes) : Bytes := envelopeHeader hash ++ body ++ tag

theorem length_artifactMagic : artifactMagic.length = 16 := by
  rw [artifactMagic, length_utf8Bytes]
  rfl

theorem length_envelopeHeader (hash : ContentHash) : (envelopeHeader hash).length = artifactHeaderLen := by
  simp [envelopeHeader, length_artifactMagic, artifactHeaderLen]

section Frame

variable {hash : ContentHash} {body tag : Bytes} (htag : tag.length = artifactHmacLen)
include htag

theorem length_frame : (frame hash body tag).length = artifactHeaderLen + body.length + artifactHmacLen := by
  simp only [frame, length_append, length_envelopeHeader, htag]

theorem frame_length_sub_tag :
    (frame hash body tag).length - artifactHmacLen = (envelopeHeader hash ++ body).length := by
  rw [length_frame htag, length_append, length_envelopeHeader]
  omega

theorem frame_message : (frame hash body tag).take ((frame hash body tag).length - artifactHmacLen) =
    envelopeHeader hash ++ body := by
  rw [frame_length_sub_tag htag]
  exact take_left

theorem frame_tag : (frame hash body tag).drop ((frame hash body tag).length - artifactHmacLen) = tag := by
  rw [frame_length_sub_tag htag]
  exact drop_left

omit htag in
theorem frame_header : (frame hash body tag).take artifactHeaderLen = envelopeHeader hash := by
  rw [frame, append_assoc, ← length_envelopeHeader hash]
  exact take_left

theorem frame_body :
    slice (frame hash body tag) artifactHeaderLen ((frame hash body tag).length - artifactHmacLen) = body := by
  rw [frame_length_sub_tag htag, frame, append_assoc,
    slice_append_right (length_envelopeHeader hash).le, length_append, length_envelopeHeader,
    Nat.sub_self, Nat.add_sub_cancel_left]
  exact slice_append_left rfl

theorem checkHeader_frame : checkHeader (frame hash body tag) = .ok hash.toList := by
  have hlong : ¬ (frame hash body tag).length < artifactHeaderLen + artifactHmacLen := by
    rw [length_frame htag]
    omega
  have hmagic : slice (frame hash body tag) 0 16 = artifactMagic := by
    rw [frame, envelopeHeader, append_assoc, append_assoc]
    exact slice_append_left length_artifactMagic
  have hversion : slice (frame hash body tag) 16 20 = leBytes 4 artifactVersion := by
    rw [frame, envelopeHeader, append_assoc, append_assoc,
      slice_append_right length_artifactMagic.le, length_artifactMagic, append_assoc]
    exact slice_append_left (length_leBytes 4 artifactVersion)
  have hhash : slice (frame hash body tag) 20 52 = hash.toList := by
    rw [frame, envelopeHeader, append_assoc, append_assoc,
      slice_append_right (length_artifactMagic.le.trans (by decide)), length_artifactMagic,
      append_assoc, slice_append_right (length_leBytes 4 artifactVersion).le, length_leBytes]
    exact slice_append_left hash.toList_length
  rw [checkHeader, if_neg hlong, if_neg (not_not_intro hmagic), hversion,
    ofLeBytes_leBytes_of_lt (by decide), if_neg (not_not_intro rfl), hhash]

theorem frame_inj {hash' : ContentHash} {body' tag' : Bytes} (htag' : tag'.length = artifactHmacLen)
    (h : frame hash body tag = frame hash' body' tag') : hash = hash' ∧ body = body' ∧ tag = tag' := by
  have hhash := (checkHeader_frame htag).symm.trans ((congrArg checkHeader h).trans (checkHeader_frame htag'))
  refine ⟨List.Vector.toList_injective (Except.ok.inj hhash), ?_, ?_⟩
  · exact (frame_body htag).symm.trans (h ▸ frame_body htag')
  · exact (frame_tag htag).symm.trans (h ▸ frame_tag htag')

end Frame

variable {bytes : Bytes}

/-- Bytes whose header passes the checks are a frame. -/
theorem frame_of_checkHeader {hashOnDisk : Bytes} (h : checkHeader bytes = .ok hashOnDisk) :
    ∃ (hash : ContentHash) (body tag : Bytes), hashOnDisk = hash.toList ∧
      tag.length = artifactHmacLen ∧ bytes = frame hash body tag := by
  unfold checkHeader at h
  split at h
  · cases h
  next hlong =>
  have hsize : 84 ≤ bytes.length := Nat.le_of_not_lt hlong
  split at h
  · cases h
  next hmagic =>
  split at h
  · cases h
  next hversion =>
  cases h
  have hmagic : slice bytes 0 16 = artifactMagic := not_not.mp hmagic
  have hversion : slice bytes 16 20 = leBytes 4 artifactVersion := by
    have hlength : (slice bytes 16 20).length = 4 := length_slice (by omega)
    rw [← leBytes_ofLeBytes (slice bytes 16 20), hlength, not_not.mp hversion]
  have hhash : (slice bytes 20 52).length = 32 := length_slice (by omega)
  refine ⟨⟨slice bytes 20 52, hhash⟩, slice bytes 52 (bytes.length - 32), bytes.drop (bytes.length - 32),
    rfl, ?_, ?_⟩
  · rw [length_drop, artifactHmacLen]
    omega
  · calc bytes = bytes.drop 0 := rfl
      _ = slice bytes 0 16 ++ (slice bytes 16 20 ++ (slice bytes 20 52 ++
            (slice bytes 52 (bytes.length - 32) ++ bytes.drop (bytes.length - 32)))) := by
        rw [slice_append_drop bytes (by omega), slice_append_drop bytes (by omega),
          slice_append_drop bytes (by omega), slice_append_drop bytes (by omega)]
      _ = frame ⟨slice bytes 20 52, hhash⟩ (slice bytes 52 (bytes.length - 32))
            (bytes.drop (bytes.length - 32)) := by
        rw [hmagic, hversion]
        simp [frame, envelopeHeader]

/-! ## What is accepted -/

/-- A decoder reads the body to its end and has then emitted the payload. -/
def Decodes (P : Primitives) (body payload : Bytes) : Prop :=
  ∃ run, P.zstd.decodeFrames body = .ok run ∧ run.output = payload ∧ run.fault = none

/-- The bytes are header, body and tag under the key, the header has the payload's hash, and the body
decodes to the payload, which is within the cap. -/
structure IsEnvelope (P : Primitives) (cap : Nat) (key : Block) (bytes payload : Bytes) : Prop where
  sealed : ∃ body, bytes = sealEnvelope P key (P.blake3 payload) body ∧ Decodes P body payload
  within : payload.length ≤ cap

variable {key : Block}

theorem checkTag_ok {message tag : Bytes} :
    (checkTag P key message tag).result = .ok () ↔ tag = (P.hmacSha256 key message).toList := by
  unfold checkTag
  split
  · next h => exact ⟨fun _ => h.symm, fun _ => rfl⟩
  · next h => exact ⟨fun hok => (nomatch hok), fun htag => absurd htag.symm h⟩

variable {cap : Nat} {payload : Bytes}

theorem checkPayload_ok {hashOnDisk : Bytes} :
    checkPayload P cap hashOnDisk payload = .ok () ↔
      payload.length ≤ cap ∧ (P.blake3 payload).toList = hashOnDisk := by
  simp [checkPayload, guard_eq_ok]

theorem checkRequested_ok {requested : ContentHash} :
    DiskArtifactStore.checkRequested P requested payload = .ok () ↔ P.blake3 payload = requested := by
  simp [DiskArtifactStore.checkRequested]

/-- Asking for one byte more than the cap tells a payload within it from a longer one. -/
theorem readToEnd_ok {run : DecodeRun} (hwithin : payload.length ≤ cap) :
    run.readToEnd (cap + 1) = .ok payload ↔ run.output = payload ∧ run.fault = none := by
  unfold DecodeRun.readToEnd
  split
  · next hlong =>
    constructor
    · intro h
      have hlength := congrArg List.length (Except.ok.inj h)
      rw [length_take, Nat.min_eq_left hlong] at hlength
      omega
    · rintro ⟨rfl, -⟩
      omega
  · cases hfault : run.fault with
    | none => exact ⟨fun h => ⟨Except.ok.inj h, rfl⟩, fun h => congrArg _ h.1⟩
    | some e => exact ⟨fun h => (nomatch h), fun h => (nomatch h.2)⟩

theorem readToEnd_eq_take {run : DecodeRun} {limit : Nat} {decoded : Bytes}
    (h : run.readToEnd limit = .ok decoded) : decoded = run.output.take limit := by
  unfold DecodeRun.readToEnd at h
  split at h
  · exact (Except.ok.inj h).symm
  next hshort =>
  split at h
  · cases h
  · rw [take_of_length_le (Nat.le_of_not_le hshort)]
    exact (Except.ok.inj h).symm

@[simp] theorem mapError_eq_ok {ε ε' α : Type} {f : ε → ε'} {r : Except ε α} {a : α} :
    r.mapError f = .ok a ↔ r = .ok a := by
  cases r with
  | error e | ok b => simp [Except.mapError]

variable {body : Bytes}

theorem decodeBody_ok (hwithin : payload.length ≤ cap) :
    decodeBody P (cap + 1) body = .ok payload ↔ Decodes P body payload := by
  unfold decodeBody Decodes
  cases P.zstd.decodeFrames body with
  | error e => exact ⟨fun h => (nomatch h), fun ⟨_, h, _⟩ => (nomatch h)⟩
  | ok run => simp [readToEnd_ok hwithin]

theorem length_tag (key : Block) (message : Bytes) :
    (P.hmacSha256 key message).toList.length = artifactHmacLen := List.Vector.toList_length _

/-- What the checks behind the header come to, in whatever order they are made. -/
theorem isEnvelope_frame_iff {hash : ContentHash} {tag : Bytes} (htag : tag.length = artifactHmacLen) :
    IsEnvelope P cap key (frame hash body tag) payload ↔
      tag = (P.hmacSha256 key (envelopeHeader hash ++ body)).toList ∧
        decodeBody P (cap + 1) body = .ok payload ∧ checkPayload P cap hash.toList payload = .ok () := by
  constructor
  · rintro ⟨⟨body', hframe, hdecodes⟩, hwithin⟩
    obtain ⟨rfl, rfl, rfl⟩ := frame_inj htag (length_tag _ _) hframe
    exact ⟨rfl, (decodeBody_ok hwithin).mpr hdecodes, checkPayload_ok.mpr ⟨hwithin, rfl⟩⟩
  · rintro ⟨rfl, hdecode, hpayload⟩
    obtain ⟨hwithin, hhash⟩ := checkPayload_ok.mp hpayload
    obtain rfl := List.Vector.toList_injective hhash
    exact ⟨⟨body, rfl, (decodeBody_ok hwithin).mp hdecode⟩, hwithin⟩

variable {bytes payload : Bytes}

/-- What fails the checks of the header is no envelope. -/
theorem IsEnvelope.checkHeader_ok (h : IsEnvelope P cap key bytes payload) :
    ∃ hashOnDisk, checkHeader bytes = .ok hashOnDisk := by
  obtain ⟨body, rfl, -⟩ := h.sealed
  exact ⟨_, checkHeader_frame (length_tag _ _)⟩

/-- What a decoder accepts is settled by the frames, once it has checked the header. -/
theorem iff_of_frames {accepts holds : Prop} (haccepts : accepts → ∃ hashOnDisk, checkHeader bytes = .ok hashOnDisk)
    (hholds : holds → ∃ hashOnDisk, checkHeader bytes = .ok hashOnDisk)
    (hframe : ∀ hash body tag, tag.length = artifactHmacLen → bytes = frame hash body tag → (accepts ↔ holds)) :
    accepts ↔ holds := by
  by_cases hheader : ∃ hashOnDisk, checkHeader bytes = .ok hashOnDisk
  · obtain ⟨_, hheader⟩ := hheader
    obtain ⟨hash, body, tag, -, htag, hbytes⟩ := frame_of_checkHeader hheader
    exact hframe hash body tag htag hbytes
  · exact iff_of_false (hheader ∘ haccepts) (hheader ∘ hholds)

/-! ## The decoder over a slice -/

theorem decodeEnvelope_frame {hash : ContentHash} {tag : Bytes} (htag : tag.length = artifactHmacLen)
    (key : Block) (cap : Nat) :
    decodeEnvelopeFromBytesWithCap P (frame hash body tag) key cap = (do
      checkTag P key (envelopeHeader hash ++ body) tag
      let payload ← .perform (.decompress body) (decodeBody P (cap + 1) body)
      .quiet (checkPayload P cap hash.toList payload)
      return payload) := by
  have hbody : (envelopeHeader hash ++ body).drop artifactHeaderLen = body := by
    rw [← length_envelopeHeader hash]
    exact drop_left
  simp [decodeEnvelopeFromBytesWithCap, checkHeader_frame htag, frame_message htag, frame_tag htag, hbody]

theorem decodeEnvelope_ok_iff :
    (decodeEnvelopeFromBytesWithCap P bytes key cap).result = .ok payload ↔ IsEnvelope P cap key bytes payload := by
  refine iff_of_frames (fun h => (bind_result_ok.mp h).imp fun _ => And.left)
    IsEnvelope.checkHeader_ok ?_
  rintro hash body tag htag rfl
  rw [decodeEnvelope_frame htag, isEnvelope_frame_iff htag]
  simp [bind_result_ok, Unique.exists_iff, checkTag_ok, Traced.pure_eq_quiet]

/-- The payload of an envelope does not depend on the key. -/
theorem IsEnvelope.payload_unique {cap cap' : Nat} {key key' : Block} {payload' : Bytes}
    (h : IsEnvelope P cap key bytes payload) (h' : IsEnvelope P cap' key' bytes payload') : payload = payload' := by
  obtain ⟨⟨body, rfl, run, hrun, rfl, -⟩, -⟩ := h
  obtain ⟨⟨body', hframe, run', hrun', rfl, -⟩, -⟩ := h'
  obtain ⟨-, rfl, -⟩ := frame_inj (length_tag _ _) (length_tag _ _) hframe
  obtain rfl := Except.ok.inj (hrun.symm.trans hrun')
  rfl

/-- On an envelope of one key, a decoder with another key finds a wrong tag or the same payload. -/
theorem IsEnvelope.decode_with {key key' : Block} (h : IsEnvelope P cap key bytes payload) :
    (decodeEnvelopeFromBytesWithCap P bytes key' cap).result = .ok payload ∨
      (decodeEnvelopeFromBytesWithCap P bytes key' cap).result = .error .badHmac := by
  obtain ⟨hashOnDisk, hheader⟩ := h.checkHeader_ok
  obtain ⟨hash, body, tag, rfl, htag, rfl⟩ := frame_of_checkHeader hheader
  obtain ⟨-, hdecode, hpayload⟩ := (isEnvelope_frame_iff htag).mp h
  by_cases htag' : tag = (P.hmacSha256 key' (envelopeHeader hash ++ body)).toList
  · exact .inl (decodeEnvelope_ok_iff.mpr ((isEnvelope_frame_iff htag).mpr ⟨htag', hdecode, hpayload⟩))
  · refine .inr ?_
    rw [decodeEnvelope_frame htag, checkTag, if_neg (Ne.symm htag')]
    rfl

/-! ## Reading from the store -/

namespace DiskArtifactStore

variable {body tag : Bytes} {hash : ContentHash}

theorem getBlob_frame (htag : tag.length = artifactHmacLen) (key : Block) (requested : ContentHash) :
    getBlob P (frame hash body tag) key requested = (do
      let decodeResult ← .perform (.decompress body) (.ok (decodeBody P (maxDecompressedLen + 1) body))
      checkTag P key (envelopeHeader hash ++ body) tag
      let payload ← .quiet decodeResult
      .quiet (checkPayload P maxDecompressedLen hash.toList payload)
      .quiet (checkRequested P requested payload)
      return payload) := by
  simp [getBlob, checkHeader_frame htag, frame_header, frame_body htag, frame_tag htag]

variable {requested : ContentHash} {key : Block}

/-- `get` accepts the envelopes of payloads with the requested hash. -/
theorem getBlob_ok_iff :
    (getBlob P bytes key requested).result = .ok payload ↔
      IsEnvelope P maxDecompressedLen key bytes payload ∧ P.blake3 payload = requested := by
  refine iff_of_frames (fun h => (bind_result_ok.mp h).imp fun _ => And.left)
    (fun h => h.1.checkHeader_ok) ?_
  rintro hash body tag htag rfl
  rw [getBlob_frame htag, isEnvelope_frame_iff htag, ← checkRequested_ok]
  simp [bind_result_ok, Unique.exists_iff, checkTag_ok, Traced.pure_eq_quiet, and_assoc]

theorem verifyBlob_frame (htag : tag.length = artifactHmacLen) (key : Block) :
    verifyBlob P (frame hash body tag) key = (do
      checkTag P key (envelopeHeader hash ++ body) tag
      return ⟨hash.toList, body.length⟩) := by
  have hlength : (frame hash body tag).length - artifactHmacLen - artifactHeaderLen = body.length := by
    rw [length_frame htag]
    omega
  simp [verifyBlob, checkHeader_frame htag, frame_header, frame_body htag, frame_tag htag, hlength]

/-- The second pass rereads the body it was told the length of. -/
theorem frame_reread : slice (frame hash body tag) artifactHeaderLen (artifactHeaderLen + body.length) = body := by
  rw [frame, append_assoc, slice_append_right (length_envelopeHeader hash).le,
    length_envelopeHeader, Nat.sub_self, Nat.add_sub_cancel_left]
  exact slice_append_left rfl

/-- The bytes that have gone to the writer. -/
def written (log : List Event) : Bytes :=
  log.flatMap fun
    | .write bytes => bytes
    | _ => []

variable {out : Bytes → WriterEnd}

/-- Over a writer that takes everything, what is written has passed the checks of `get`. -/
theorem getBlobTo_frame {n : Nat} (htag : tag.length = artifactHmacLen) (hout : ∀ bytes, out bytes = .done) :
    (getBlobTo P (frame hash body tag) key requested out).result = .ok n ∧
        written (getBlobTo P (frame hash body tag) key requested out).log = payload ↔
      tag = (P.hmacSha256 key (envelopeHeader hash ++ body)).toList ∧
        decodeBody P (maxDecompressedLen + 1) body = .ok payload ∧
        checkPayload P maxDecompressedLen hash.toList payload = .ok () ∧
        checkRequested P requested payload = .ok () ∧ payload.length = n := by
  by_cases hcheck : tag = (P.hmacSha256 key (envelopeHeader hash ++ body)).toList
  · have hverify : verifyBlob P (frame hash body tag) key =
        .perform (.verified (envelopeHeader hash ++ body) tag) (.ok ⟨hash.toList, body.length⟩) := by
      rw [verifyBlob_frame htag, checkTag, if_pos hcheck.symm]
      rfl
    simp only [getBlobTo, hverify, Traced.perform_ok_bind, decodeToWriter, frame_reread, decodeBody]
    cases P.zstd.decodeFrames body with
    | error e => simp [bind_result_ok]
    | ok run =>
      -- the checks behind the write leave no event
      simp only [hout, WriterEnd.toResult, Traced.perform_ok_bind, Traced.pure_eq_quiet,
        Traced.quiet_bind_quiet, Traced.quiet_result]
      cases hread : run.readToEnd (maxDecompressedLen + 1) with
      | error e => simp [Except.mapError]
      | ok decoded =>
        have htake := readToEnd_eq_take hread
        simp [Except.mapError, bind_eq_ok, Unique.exists_iff, written, Traced.quiet, ← htake, hcheck]
        grind
  · simp [getBlobTo, verifyBlob_frame htag, bind_result_ok, Unique.exists_iff, checkTag_ok, hcheck]

/-- `get_to` accepts what `get` accepts, and writes what `get` returns. -/
theorem getBlobTo_ok_iff {n : Nat} (hout : ∀ bytes, out bytes = .done) :
    (getBlobTo P bytes key requested out).result = .ok n ∧
        written (getBlobTo P bytes key requested out).log = payload ↔
      (IsEnvelope P maxDecompressedLen key bytes payload ∧ P.blake3 payload = requested) ∧
        payload.length = n := by
  refine iff_of_frames ?_ (fun h => h.1.1.checkHeader_ok) ?_
  · rintro ⟨h, -⟩
    obtain ⟨verified, hverify, -⟩ := bind_result_ok.mp h
    exact (bind_result_ok.mp hverify).imp fun _ => And.left
  · rintro hash body tag htag rfl
    rw [getBlobTo_frame htag hout, isEnvelope_frame_iff htag, ← checkRequested_ok]
    simp only [and_assoc]

/-! ## What is written when -/

/-- A tag over all that stands before it was found right. -/
def Authenticated (P : Primitives) (bytes : Bytes) (key : Block) (event : Event) : Prop :=
  ∃ message tag, event = .verified message tag ∧ bytes = message ++ tag ∧ tag = (P.hmacSha256 key message).toList

def IsWrite (event : Event) : Prop := ∃ bytes, event = .write bytes

theorem only_verifyBlob (bytes : Bytes) (key : Block) :
    Only (fun event => ¬ IsWrite event) (verifyBlob P bytes key) := by
  refine (Traced.only_quiet _).bind fun hashOnDisk _ => ?_
  refine Only.bind (Only.ite (fun _ => Traced.only_perform ?_ _) fun _ => ?_) fun _ _ => ?_
  · rintro ⟨_, h⟩
    cases h
  · exact Traced.only_fail _
  · exact Traced.only_pure _

theorem verifyBlob_authenticates {verified : VerifiedBlob} (h : (verifyBlob P bytes key).result = .ok verified) :
    ∃ event ∈ (verifyBlob P bytes key).log, Authenticated P bytes key event := by
  obtain ⟨hashOnDisk, hheader, -⟩ := bind_result_ok.mp h
  obtain ⟨hash, body, tag, rfl, htag, rfl⟩ := frame_of_checkHeader hheader
  rw [verifyBlob_frame htag] at h ⊢
  obtain ⟨⟨⟩, hcheck, -⟩ := bind_result_ok.mp h
  refine ⟨.verified (envelopeHeader hash ++ body) tag, ?_, _, _, rfl, rfl, checkTag_ok.mp hcheck⟩
  rw [Traced.bind_log_ok hcheck, checkTag, if_pos (checkTag_ok.mp hcheck).symm]
  exact mem_cons_self

/-- Nothing goes to the writer before the tag has been checked. -/
theorem getBlobTo_guarded (bytes : Bytes) (key : Block) (requested : ContentHash) (out : Bytes → WriterEnd) :
    Traced.Guarded (Authenticated P bytes key) IsWrite (getBlobTo P bytes key requested out) :=
  (only_verifyBlob bytes key).guarded.bind_of_guard fun _ => verifyBlob_authenticates

end DiskArtifactStore

/-! ## What the writers produce -/

variable {pieces : List Bytes}

/-- Sealing what the encoder made of a payload gives an envelope of it. -/
theorem isEnvelope_seal (hZ : P.zstd.Lossless) {level : Int} (key : Block)
    (hencode : P.zstd.encode level pieces = .ok body) (hwithin : pieces.flatten.length ≤ cap) :
    IsEnvelope P cap key (sealEnvelope P key (P.blake3 pieces.flatten) body) pieces.flatten :=
  ⟨⟨body, rfl, hZ.frames level pieces body hencode⟩, hwithin⟩

theorem isEnvelope_encode (hZ : P.zstd.Lossless)
    (h : encodeEnvelopeToWriter P payload key = .ok bytes) : IsEnvelope P maxDecompressedLen key bytes payload := by
  unfold encodeEnvelopeToWriter at h
  split at h
  · cases h
  next hsize =>
  split at h
  · cases h
  next body hencode =>
  cases h
  have hflat : [payload].flatten = payload := append_nil payload
  have hwithin : [payload].flatten.length ≤ maxDecompressedLen := by
    rw [hflat]
    exact (Nat.le_of_not_lt hsize).trans (Nat.le_add_right _ _)
  have henvelope := isEnvelope_seal hZ key hencode hwithin
  rw [hflat] at henvelope
  exact henvelope

namespace DiskArtifactStore

variable {D : DiskArtifactStore} {dir dir' : Directory} {hash : ContentHash}

/-- What a publication that succeeds has done. -/
theorem publish_ok {hash' : ContentHash} (h : D.publish P dir hash pieces = (.ok hash', dir')) :
    hash' = hash ∧ ∃ path body, D.pathFor P hash = .ok path ∧
      P.zstd.encode D.zstdLevel pieces = .ok body ∧
      dir' = dir.insert path (sealEnvelope P D.keyProvider.activeKey hash body) := by
  unfold publish at h
  split at h
  · exact nomatch congrArg Prod.fst h
  next path hpath =>
  split at h
  · exact nomatch congrArg Prod.fst h
  next body hbody =>
  obtain ⟨hhash, hdir⟩ := Prod.mk.inj h
  exact ⟨(Except.ok.inj hhash).symm, path, body, hpath, hbody, hdir.symm⟩

/-- The pieces taken from a source are those before the first empty one, and they are within the cap. -/
theorem ingest_ok {src : List Bytes} {n : Nat} (hn : n ≤ maxPayloadLen) (h : ingest src n = .ok pieces) :
    pieces = src.takeWhile (fun piece => !piece.isEmpty) ∧ n + pieces.flatten.length ≤ maxPayloadLen := by
  induction src generalizing n pieces with
  | nil =>
    cases h
    exact ⟨rfl, hn⟩
  | cons piece rest ih =>
    unfold ingest at h
    split at h
    · next hempty =>
      cases h
      rw [takeWhile_cons, if_neg (by simp [hempty])]
      exact ⟨rfl, hn⟩
    next hpiece =>
    simp only at h
    split at h
    · cases h
    next hcap =>
    obtain ⟨tail, htail, h⟩ := bind_eq_ok.mp h
    cases h
    -- the sum does not saturate, since the cap is far below 2 ^ 64
    have hsum : min (n + piece.length) (2 ^ 64 - 1) = n + piece.length := by
      have hbound : maxPayloadLen < 2 ^ 64 - 1 := by decide
      omega
    rw [hsum] at hcap htail
    obtain ⟨rfl, hwithin⟩ := ih (Nat.le_of_not_lt hcap) htail
    refine ⟨?_, ?_⟩
    · rw [takeWhile_cons, if_pos (by simp [hpiece])]
    · rw [flatten_cons, length_append]
      omega

/-- The directory has, under the store's own name for the hash, an envelope of the payload. -/
def Holds (P : Primitives) (D : DiskArtifactStore) (dir : Directory) (hash : ContentHash)
    (payload : Bytes) : Prop :=
  hash = P.blake3 payload ∧ ∃ path bytes, D.pathFor P hash = .ok path ∧ dir.lookup path = some bytes ∧
    IsEnvelope P maxDecompressedLen D.keyProvider.activeKey bytes payload

theorem holds_of_publish (hZ : P.zstd.Lossless) {hash' : ContentHash}
    (hwithin : pieces.flatten.length ≤ maxPayloadLen)
    (h : D.publish P dir (P.blake3 pieces.flatten) pieces = (.ok hash', dir')) :
    D.Holds P dir' hash' pieces.flatten := by
  obtain ⟨rfl, path, body, hpath, hencode, rfl⟩ := publish_ok h
  refine ⟨rfl, path, _, hpath, AList.lookup_insert dir, isEnvelope_seal hZ _ hencode ?_⟩
  exact hwithin.trans (Nat.le_add_right _ _)

theorem holds_of_put (hZ : P.zstd.Lossless)
    (h : D.put P dir payload = (.ok hash, dir')) : D.Holds P dir' hash payload := by
  unfold put at h
  split at h
  · exact nomatch congrArg Prod.fst h
  next hsize =>
  have hflat : [payload].flatten = payload := append_nil payload
  have hwithin : [payload].flatten.length ≤ maxPayloadLen := hflat.symm ▸ Nat.le_of_not_lt hsize
  have hpublish : D.publish P dir (P.blake3 [payload].flatten) [payload] = (.ok hash, dir') :=
    hflat.symm ▸ h
  have hholds := holds_of_publish hZ hwithin hpublish
  rw [hflat] at hholds
  exact hholds

theorem holds_of_putFrom (hZ : P.zstd.Lossless) {src : List Bytes} (h : D.putFrom P dir src = (.ok hash, dir')) :
    D.Holds P dir' hash (src.takeWhile fun piece => !piece.isEmpty).flatten := by
  unfold putFrom at h
  split at h
  · exact nomatch congrArg Prod.fst h
  next pieces hpieces =>
  obtain ⟨rfl, hwithin⟩ := ingest_ok (Nat.zero_le _) hpieces
  exact holds_of_publish hZ (by omega) h

end DiskArtifactStore

/-! ## Agreement -/

/-- All three decoders take the bytes back to the payload. -/
def DecodesBack (P : Primitives) (key : Block) (bytes payload : Bytes) : Prop :=
  (decodeEnvelopeFromBytes P bytes key).result = .ok payload ∧
    (getBlob P bytes key (P.blake3 payload)).result = .ok payload ∧
    ∀ out : Bytes → DiskArtifactStore.WriterEnd, (∀ given, out given = .done) →
      (getBlobTo P bytes key (P.blake3 payload) out).result = .ok payload.length ∧
      DiskArtifactStore.written (getBlobTo P bytes key (P.blake3 payload) out).log = payload

theorem IsEnvelope.decodesBack (h : IsEnvelope P maxDecompressedLen key bytes payload) :
    DecodesBack P key bytes payload :=
  ⟨decodeEnvelope_ok_iff.mpr h, DiskArtifactStore.getBlob_ok_iff.mpr ⟨h, rfl⟩,
    fun _ hout => (DiskArtifactStore.getBlobTo_ok_iff hout).mpr ⟨⟨h, rfl⟩, rfl⟩⟩

/-- `get` and `get_to` accept the same files: those the decoder over a slice accepts under the same key
and whose payload has the requested hash. What any of them accepts is an envelope, whatever a writer
produces is accepted, and `get_to` writes nothing it has not authenticated. -/
theorem artifact_decoders_agree (P : Primitives) (hZ : P.zstd.Lossless) :
    -- a read of the store is a read of the file it resolves to
    (∀ (D : DiskArtifactStore) (dir : Directory) (hash : ContentHash) (bytes : Bytes) (key : Block),
      D.openBlob P dir hash = .ok (bytes, key) →
        D.get P dir hash = getBlob P bytes key hash ∧
        ∀ out, D.getTo P dir hash out = getBlobTo P bytes key hash out) ∧
    -- agreement
    (∀ (bytes : Bytes) (key : Block) (hash : ContentHash) (payload : Bytes),
      ((getBlob P bytes key hash).result = .ok payload ↔
        (decodeEnvelopeFromBytes P bytes key).result = .ok payload ∧ P.blake3 payload = hash) ∧
      ∀ (out : Bytes → DiskArtifactStore.WriterEnd) (n : Nat), (∀ given, out given = .done) →
        ((getBlobTo P bytes key hash out).result = .ok n ∧
            DiskArtifactStore.written (getBlobTo P bytes key hash out).log = payload ↔
          (getBlob P bytes key hash).result = .ok payload ∧ payload.length = n)) ∧
    -- acceptance
    (∀ (bytes : Bytes) (key : Block) (payload : Bytes),
      (decodeEnvelopeFromBytes P bytes key).result = .ok payload →
        payload.length ≤ maxDecompressedLen ∧
        ∃ body, bytes = envelopeHeader (P.blake3 payload) ++ body ++
          (P.hmacSha256 key (envelopeHeader (P.blake3 payload) ++ body)).toList) ∧
    -- what was written decodes back
    (∀ (payload : Bytes) (key : Block) (bytes : Bytes),
      encodeEnvelopeToWriter P payload key = .ok bytes → DecodesBack P key bytes payload) ∧
    (∀ (D : DiskArtifactStore) (dir dir' : Directory) (payload : Bytes) (hash : ContentHash),
      D.put P dir payload = (.ok hash, dir') → hash = P.blake3 payload ∧
        ∃ path bytes, D.pathFor P hash = .ok path ∧ dir'.lookup path = some bytes ∧
          DecodesBack P D.keyProvider.activeKey bytes payload) ∧
    (∀ (D : DiskArtifactStore) (dir dir' : Directory) (src : List Bytes) (hash : ContentHash),
      D.putFrom P dir src = (.ok hash, dir') →
        hash = P.blake3 (src.takeWhile fun piece => !piece.isEmpty).flatten ∧
        ∃ path bytes, D.pathFor P hash = .ok path ∧ dir'.lookup path = some bytes ∧
          DecodesBack P D.keyProvider.activeKey bytes (src.takeWhile fun piece => !piece.isEmpty).flatten) ∧
    -- the order of `get_to`, for every writer
    (∀ (bytes : Bytes) (key : Block) (hash : ContentHash) (out : Bytes → DiskArtifactStore.WriterEnd)
      (before after : List Event) (given : Bytes),
      (getBlobTo P bytes key hash out).log = before ++ .write given :: after →
        ∃ message tag, .verified message tag ∈ before ∧ bytes = message ++ tag ∧
          tag = (P.hmacSha256 key message).toList) := by
  refine ⟨?_, ?_, ?_, ?_, ?_, ?_, ?_⟩
  · intro D dir hash bytes key hopen
    constructor
    · rw [DiskArtifactStore.get, hopen, quiet_ok_bind]
    · intro out
      rw [DiskArtifactStore.getTo, hopen, quiet_ok_bind]
  · intro bytes key hash payload
    have hget : (getBlob P bytes key hash).result = .ok payload ↔
        (decodeEnvelopeFromBytes P bytes key).result = .ok payload ∧ P.blake3 payload = hash := by
      rw [decodeEnvelopeFromBytes, decodeEnvelope_ok_iff]
      exact DiskArtifactStore.getBlob_ok_iff
    refine ⟨hget, fun out n hout => ?_⟩
    rw [DiskArtifactStore.getBlob_ok_iff]
    exact DiskArtifactStore.getBlobTo_ok_iff hout
  · intro bytes key payload h
    obtain ⟨⟨body, hbytes, -⟩, hwithin⟩ := decodeEnvelope_ok_iff.mp h
    exact ⟨hwithin, body, hbytes⟩
  · intro payload key bytes h
    exact (isEnvelope_encode hZ h).decodesBack
  · intro D dir dir' payload hash h
    obtain ⟨hhash, path, bytes, hpath, hlookup, henvelope⟩ := DiskArtifactStore.holds_of_put hZ h
    exact ⟨hhash, path, bytes, hpath, hlookup, henvelope.decodesBack⟩
  · intro D dir dir' src hash h
    obtain ⟨hhash, path, bytes, hpath, hlookup, henvelope⟩ := DiskArtifactStore.holds_of_putFrom hZ h
    exact ⟨hhash, path, bytes, hpath, hlookup, henvelope.decodesBack⟩
  · intro bytes key hash out before after given hlog
    obtain ⟨event, hmem, message, tag, rfl, hbytes, htag⟩ :=
      DiskArtifactStore.getBlobTo_guarded bytes key hash out before _ after hlog ⟨given, rfl⟩
    exact ⟨message, tag, hmem, hbytes, htag⟩

/-! ## A codec that stores -/

/-- How far the content of a stored frame goes. -/
def storedLength (bytes : Bytes) : Nat := ofLeBytes (bytes.take 8)

/-- A codec that writes the length and the content as they are. -/
def storedZstd : Zstd where
  encode _ pieces :=
    if pieces.flatten.length < 256 ^ 8 then .ok (leBytes 8 pieces.flatten.length ++ pieces.flatten)
    else .error (.write "frame too long")
  decodeFrame bytes := .ok
    { output := (bytes.drop 8).take (storedLength bytes)
      fault := if bytes.length < 8 + storedLength bytes then some "incomplete frame" else none
      consumed := 8 + storedLength bytes
      pulled := fun _ => bytes.length }
  decodeFrames bytes := .ok
    { output := (bytes.drop 8).take (storedLength bytes)
      fault := if bytes.length = 8 + storedLength bytes then none else some "incomplete frame"
      consumed := bytes.length
      pulled := fun _ => bytes.length }

theorem stored_encode {level : Int} {c : Bytes} (h : storedZstd.encode level pieces = .ok c) :
    c = leBytes 8 pieces.flatten.length ++ pieces.flatten ∧ ∀ rest : Bytes,
      storedLength (c ++ rest) = pieces.flatten.length ∧ (c ++ rest).drop 8 = pieces.flatten ++ rest := by
  simp only [storedZstd] at h
  split at h
  · next hsize =>
    cases h
    have hlength := length_leBytes 8 pieces.flatten.length
    refine ⟨rfl, fun rest => ⟨?_, ?_⟩⟩
    · rw [storedLength, append_assoc, take_left' hlength, ofLeBytes_leBytes_of_lt hsize]
    · rw [append_assoc, drop_left' hlength]
  · cases h

theorem storedZstd_lossless : storedZstd.Lossless where
  frame level pieces c rest h := by
    obtain ⟨hc, hparts⟩ := stored_encode h
    obtain ⟨hlength, hdrop⟩ := hparts rest
    have hsize : c.length = 8 + pieces.flatten.length := by rw [hc, length_append, length_leBytes]
    refine ⟨_, rfl, ?_, ?_, ?_⟩
    · change ((c ++ rest).drop 8).take (storedLength (c ++ rest)) = _
      rw [hlength, hdrop, take_left]
    · refine if_neg ?_
      rw [hlength, length_append, hsize]
      omega
    · change 8 + storedLength (c ++ rest) = c.length
      rw [hlength, hsize]
  frames level pieces c h := by
    obtain ⟨hc, hparts⟩ := stored_encode h
    obtain ⟨hlength, hdrop⟩ := hparts []
    rw [append_nil] at hlength hdrop
    refine ⟨_, rfl, ?_, ?_⟩
    · change (c.drop 8).take (storedLength c) = _
      rw [hlength, hdrop, append_nil, take_length]
    · refine if_pos ?_
      rw [hlength, hc, length_append, length_leBytes]

theorem stored_encode_single (level : Int) (h : payload.length < 256 ^ 8) :
    storedZstd.encode level [payload] = .ok (leBytes 8 payload.length ++ payload) := by
  have hflat : [payload].flatten = payload := append_nil payload
  simp only [storedZstd, hflat]
  exact if_pos h

def zeroBlock : Block := List.Vector.replicate 32 0

/-- Stored content under a tag and a hash that are always zero. -/
def storedPrimitives : Primitives where
  zstd := storedZstd
  hmacSha256 _ _ := zeroBlock
  blake3 _ := zeroBlock

theorem artifact_decoders_agree_stored :
    DecodesBack storedPrimitives zeroBlock
      (sealEnvelope storedPrimitives zeroBlock zeroBlock (leBytes 8 2 ++ [7, 9])) [7, 9] := by
  obtain ⟨-, -, -, hencode, -⟩ := artifact_decoders_agree storedPrimitives storedZstd_lossless
  exact hencode [7, 9] zeroBlock _ rfl

/-- The decoder over a slice is asked for no hash: it takes an envelope that `get` refuses when another
hash was requested. -/
theorem decoder_takes_any_hash : ∃ bytes requested,
    (decodeEnvelopeFromBytes storedPrimitives bytes zeroBlock).result = .ok [] ∧
    ∀ payload, (getBlob storedPrimitives bytes zeroBlock requested).result ≠ .ok payload := by
  have henvelope : IsEnvelope storedPrimitives maxDecompressedLen zeroBlock
      (sealEnvelope storedPrimitives zeroBlock zeroBlock (leBytes 8 0)) [] :=
    isEnvelope_encode storedZstd_lossless rfl
  refine ⟨_, List.Vector.replicate 32 1, decodeEnvelope_ok_iff.mpr henvelope, fun payload h => ?_⟩
  have hhash : zeroBlock = List.Vector.replicate 32 1 := (DiskArtifactStore.getBlob_ok_iff.mp h).2
  exact absurd hhash (by decide)

end TensorWasm.Artifacts
