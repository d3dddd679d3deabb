import TensorWasm.Proof.SnapshotChecks

/-!
# Authenticity of snapshots

A reader parses nothing it has not verified, unless it may accept unsigned bytes and the bytes carry no
trace of a signature. What it then accepts is signed with version 3, sealed with version 2, or unsigned
with version 2.
-/

namespace TensorWasm.Snapshots

open Lib Artifacts List
open SnapshotWriter (signedMessage)
open Traced (Only only_fail Leaves Guarded leaves_fail only_pure)
open SignatureKind (fromByte hmacSha256 trailerLen)

variable {B : Libraries} {F : Features} {R : SnapshotReader B} {clock : Clock} {bytes : Bytes}

namespace SnapshotReader

/-- The signature verifies over the message under the reader's key of the kind. -/
def Verifies (R : SnapshotReader B) : SignatureKind → Bytes → Bytes → Prop
  | .ed25519, message, sig => ∃ key, R.ed25519VerifyingKey = some key ∧
      ∃ h : sig.length = 64, B.ed25519.verifyStrict key message ⟨sig, h⟩ = true
  | .hmacSha256, message, sig => ∃ key ∈ R.candidateKeys, sig = (B.artifacts.hmacSha256 key message).toList

/-- The bytes are a frame, the trailer magic, the kind and a signature over all of this. -/
def Signed (R : SnapshotReader B) (bytes : Bytes) : Prop :=
  ∃ (compressed : Bytes) (kind : SignatureKind) (sig : Bytes),
    bytes = compressed ++ v3TrailerMagic ++ [kind.toByte] ++ sig ∧
      R.Verifies kind (compressed ++ v3TrailerMagic ++ [kind.toByte]) sig

/-- The bytes are an artifact envelope under one of the reader's HMAC keys. -/
def Sealed (R : SnapshotReader B) (bytes : Bytes) : Prop :=
  ∃ key ∈ R.candidateKeys, ∃ payload, IsEnvelope B.artifacts R.maxDecompressed key bytes payload

/-! ## Verification -/

theorem any_key_iff {message sig : Bytes} :
    (R.candidateKeys.any fun key => (B.artifacts.hmacSha256 key message).toList = sig) = true ↔
      R.Verifies .hmacSha256 message sig := by
  rw [any_eq_true]
  constructor
  · rintro ⟨key, hkey, h⟩
    exact ⟨key, hkey, (of_decide_eq_true h).symm⟩
  · rintro ⟨key, hkey, h⟩
    exact ⟨key, hkey, decide_eq_true h.symm⟩

/-- A signature is verified, which leaves an event, or the reader fails without one. -/
theorem checkSignature_cases (R : SnapshotReader B) (kind : SignatureKind) (message sig : Bytes) :
    (R.Verifies kind message sig ∧
        R.checkSignature kind message sig = .perform (.verified message sig) (.ok ())) ∨
      ¬ R.Verifies kind message sig ∧ ∃ e, R.checkSignature kind message sig = .fail e := by
  cases kind with
  | ed25519 =>
    cases hkey : R.ed25519VerifyingKey with
    | none =>
      refine .inr ⟨?_, _, by simp only [checkSignature, hkey]; rfl⟩
      rintro ⟨key, hsome, -⟩
      exact nomatch hkey.symm.trans hsome
    | some key =>
      by_cases hlength : sig.length = 64
      · by_cases hverify : B.ed25519.verifyStrict key message ⟨sig, hlength⟩ = true
        · exact .inl ⟨⟨key, hkey, hlength, hverify⟩, by
            simp only [checkSignature, hkey, dif_pos hlength, if_pos hverify]⟩
        · refine .inr ⟨?_, _, by simp only [checkSignature, hkey, dif_pos hlength, if_neg hverify]; rfl⟩
          rintro ⟨key', hsome, _, hverify'⟩
          obtain rfl := Option.mem_unique hkey hsome
          exact hverify hverify'
      · refine .inr ⟨?_, _, by simp only [checkSignature, hkey, dif_neg hlength]; rfl⟩
        rintro ⟨_, -, h, -⟩
        exact hlength h
  | hmacSha256 =>
    by_cases hany : R.Verifies .hmacSha256 message sig
    · refine .inl ⟨hany, ?_⟩
      have hkeys : ¬ R.candidateKeys.isEmpty = true := by
        obtain ⟨key, hkey, -⟩ := hany
        simpa using ne_nil_of_mem hkey
      simp only [checkSignature, if_neg hkeys, if_pos (any_key_iff.mpr hany)]
    · refine .inr ⟨hany, ?_⟩
      simp only [checkSignature]
      split
      · exact ⟨_, rfl⟩
      · rw [if_neg fun h => hany (any_key_iff.mp h)]
        exact ⟨_, rfl⟩

variable {kind : SignatureKind}

theorem toByte_of_fromByte {byte : UInt8} (h : fromByte byte = some kind) : byte = kind.toByte := by
  unfold fromByte at h
  split at h
  · next hbyte => obtain rfl := Option.some.inj h; exact hbyte
  split at h
  · next hbyte => obtain rfl := Option.some.inj h; exact hbyte
  · cases h

theorem fromByte_toByte (kind : SignatureKind) : fromByte kind.toByte = some kind := by
  cases kind <;> rfl

theorem length_v3TrailerMagic : v3TrailerMagic.length = v3TrailerMagicLen := by
  rw [v3TrailerMagic, length_utf8Bytes]
  rfl

variable {compressed sig : Bytes}

/-- The parts of a trailer are found where they were put. -/
theorem verifyV3Trailer_eq (hsig : sig.length = kind.signatureLen) :
    R.verifyV3Trailer (signedMessage compressed kind ++ sig) compressed.length kind =
      R.checkSignature kind (signedMessage compressed kind) sig := by
  have hbytes : signedMessage compressed kind ++ sig = compressed ++ (v3TrailerMagic ++ ([kind.toByte] ++ sig)) := by
    simp [signedMessage]
  have hlong : ¬ (compressed ++ (v3TrailerMagic ++ ([kind.toByte] ++ sig))).length < compressed.length := by
    simp only [length_append]
    omega
  have hlength : (v3TrailerMagic ++ ([kind.toByte] ++ sig)).length = kind.trailerLen := by
    simp only [length_append, length_v3TrailerMagic, hsig, length_singleton, trailerLen, Nat.add_assoc]
  have hmagic : (v3TrailerMagic ++ ([kind.toByte] ++ sig)).take v3TrailerMagicLen = v3TrailerMagic :=
    take_left' length_v3TrailerMagic
  have hbyte : (v3TrailerMagic ++ ([kind.toByte] ++ sig)).getD v3TrailerMagicLen 0 = kind.toByte := by
    rw [← length_v3TrailerMagic, getD_append_right _ _ _ _ le_rfl, Nat.sub_self]
    rfl
  have hrest : (v3TrailerMagic ++ ([kind.toByte] ++ sig)).drop (v3TrailerMagicLen + 1) = sig := by
    rw [← append_assoc]
    exact drop_left' (by rw [length_append, length_v3TrailerMagic, length_singleton])
  rw [hbytes]
  simp only [verifyV3Trailer, if_neg hlong, drop_left, take_left, hlength, hmagic, hbyte, hrest,
    fromByte_toByte, ne_eq, not_true_eq_false, if_false]
  rfl

variable {prefixLen : Nat}

/-- A trailer that verifies has these parts. -/
theorem trailer_of_verify (h : (R.verifyV3Trailer bytes prefixLen kind).result = .ok ()) :
    ∃ compressed sig, prefixLen = compressed.length ∧ sig.length = kind.signatureLen ∧
      bytes = signedMessage compressed kind ++ sig := by
  unfold verifyV3Trailer at h
  split at h
  · cases h
  next hlong =>
  simp only at h
  split at h
  · cases h
  next hlength =>
  split at h
  · cases h
  next hmagic =>
  split at h
  · cases h
  next parsedKind hkind =>
  split at h
  · cases h
  next hsame =>
  obtain rfl := not_not.mp hsame
  have hlength := not_not.mp hlength
  refine ⟨bytes.take prefixLen, (bytes.drop prefixLen).drop (v3TrailerMagicLen + 1), ?_, ?_, ?_⟩
  · rw [length_take]
    omega
  · rw [length_drop, hlength, trailerLen]
    omega
  · have hbyte : (bytes.drop prefixLen).drop v3TrailerMagicLen = parsedKind.toByte ::
        (bytes.drop prefixLen).drop (v3TrailerMagicLen + 1) := by
      have hin : v3TrailerMagicLen < (bytes.drop prefixLen).length := by
        rw [hlength, trailerLen]
        omega
      rw [← toByte_of_fromByte hkind, getD_eq_getElem _ _ hin]
      exact drop_eq_getElem_cons hin
    calc bytes = bytes.take prefixLen ++ bytes.drop prefixLen := (take_append_drop _ _).symm
      _ = bytes.take prefixLen ++ ((bytes.drop prefixLen).take v3TrailerMagicLen ++
            (bytes.drop prefixLen).drop v3TrailerMagicLen) := by rw [take_append_drop v3TrailerMagicLen]
      _ = bytes.take prefixLen ++ v3TrailerMagic ++ [parsedKind.toByte] ++
            (bytes.drop prefixLen).drop (v3TrailerMagicLen + 1) := by
        rw [not_not.mp hmagic, hbyte]
        simp

/-- What a verification that succeeds has found, and the event it leaves. -/
theorem verifyV3Trailer_ok (h : (R.verifyV3Trailer bytes prefixLen kind).result = .ok ()) :
    ∃ compressed sig, prefixLen = compressed.length ∧
      bytes = signedMessage compressed kind ++ sig ∧ R.Verifies kind (signedMessage compressed kind) sig ∧
      (R.verifyV3Trailer bytes prefixLen kind).log = [.verified (signedMessage compressed kind) sig] := by
  obtain ⟨compressed, sig, rfl, hsig, rfl⟩ := trailer_of_verify h
  rw [verifyV3Trailer_eq hsig] at h ⊢
  rcases R.checkSignature_cases kind (signedMessage compressed kind) sig with
    ⟨hverifies, hperform⟩ | ⟨-, e, hfail⟩
  · exact ⟨compressed, sig, rfl, rfl, hverifies, by rw [hperform]; rfl⟩
  · rw [hfail] at h
    cases h

theorem Verifies.length_sig {message sig : Bytes} (h : R.Verifies kind message sig) :
    sig.length = kind.signatureLen := by
  cases kind with
  | ed25519 =>
    obtain ⟨_, -, hlength, -⟩ := h
    exact hlength
  | hmacSha256 =>
    obtain ⟨_, -, rfl⟩ := h
    exact List.Vector.toList_length _

/-- A trailer is consistent with its own kind. -/
theorem selfConsistent_trailer (compressed : Bytes) {sig : Bytes} (hsig : sig.length = kind.signatureLen) :
    selfConsistent (signedMessage compressed kind ++ sig) kind = true ∧
      (signedMessage compressed kind ++ sig).length - kind.trailerLen =
        compressed.length := by
  have hlength : (signedMessage compressed kind ++ sig).length = compressed.length + kind.trailerLen := by
    simp only [signedMessage, length_append, length_v3TrailerMagic, length_singleton, hsig, trailerLen]
    omega
  have hstart : (signedMessage compressed kind ++ sig).length - kind.trailerLen =
      compressed.length := by
    rw [hlength, Nat.add_sub_cancel]
  refine ⟨?_, hstart⟩
  have hkind : (compressed ++ v3TrailerMagic).length = compressed.length + v3TrailerMagicLen := by
    rw [length_append, length_v3TrailerMagic]
  have hmagic : slice (signedMessage compressed kind ++ sig) compressed.length
      (compressed.length + v3TrailerMagicLen) = v3TrailerMagic := by
    rw [slice, Nat.add_sub_cancel_left, signedMessage, append_assoc, append_assoc, drop_left]
    exact take_left' length_v3TrailerMagic
  have hbyte : (signedMessage compressed kind ++ sig)[compressed.length + v3TrailerMagicLen]? = some kind.toByte := by
    rw [← hkind, signedMessage, append_assoc, List.getElem?_append_right le_rfl, Nat.sub_self]
    rfl
  rw [selfConsistent, magicAt, kindByteAt, hstart, hmagic, hbyte, hlength]
  simp

/-- The trailer that was appended is the one that is found, unless one of Ed25519 seems to be there. -/
theorem detectV3Trailer_trailer (hsig : sig.length = kind.signatureLen)
    (hfirst : kind = .hmacSha256 → selfConsistent (signedMessage compressed kind ++ sig) .ed25519 = false) :
    detectV3Trailer (signedMessage compressed kind ++ sig) = some (kind, compressed.length) := by
  obtain ⟨hself, hstart⟩ := selfConsistent_trailer compressed hsig
  cases kind with
  | ed25519 => rw [detectV3Trailer, if_pos hself, hstart]
  | hmacSha256 =>
    rw [detectV3Trailer, if_neg (Bool.eq_false_iff.mp (hfirst rfl)), if_pos hself, hstart]

theorem authenticate_trailer (hsigned : F.signedSnapshots = true)
    (hverifies : R.Verifies kind (signedMessage compressed kind) sig)
    (hfirst : kind = .hmacSha256 → selfConsistent (signedMessage compressed kind ++ sig) .ed25519 = false) :
    (R.authenticate F (signedMessage compressed kind ++ sig)).result = .ok (true, compressed.length) := by
  have hperform : R.checkSignature kind (signedMessage compressed kind) sig =
      .perform (.verified (signedMessage compressed kind) sig) (.ok ()) := by
    rcases R.checkSignature_cases kind (signedMessage compressed kind) sig with
      ⟨-, hperform⟩ | ⟨hnot, -⟩
    · exact hperform
    · exact absurd hverifies hnot
  rw [authenticate, if_pos hsigned, detectV3Trailer_trailer hverifies.length_sig hfirst]
  refine Traced.bind_result_ok.mpr ⟨(), ?_, rfl⟩
  rw [verifyV3Trailer_eq hverifies.length_sig, hperform]
  rfl

/-- How the inline path goes on: behind a signature, or without one where none is needed or found. -/
theorem authenticate_ok {isV3 : Bool} (h : (R.authenticate F bytes).result = .ok (isV3, prefixLen)) :
    (isV3 = true ∧ R.Signed bytes) ∨ (isV3 = false ∧ R.requireSignature = false) := by
  unfold authenticate at h
  split at h
  · next kind trailerAt _ =>
    obtain ⟨⟨⟩, hverify, h⟩ := Traced.bind_result_ok.mp h
    cases h
    obtain ⟨compressed, sig, -, hbytes, hverifies, -⟩ := verifyV3Trailer_ok hverify
    exact .inl ⟨rfl, compressed, kind, sig, hbytes, hverifies⟩
  split at h
  · cases h
  · next hrequire =>
    cases h
    exact .inr ⟨rfl, Bool.eq_false_iff.mpr hrequire⟩

/-- The three forms that are accepted, with the version each must have. -/
theorem restore_forms {s : Snapshot} (h : (R.restore F clock bytes).result = .ok s) :
    (R.Signed bytes ∧ s.version = snapshotVersionV3) ∨ (R.Sealed bytes ∧ s.version = snapshotVersionV2) ∨
      (R.requireSignature = false ∧ s.version = snapshotVersionV2) := by
  obtain ⟨-, ⟨-, hearly⟩ | ⟨-, isV3, prefixLen, hauth, hframe⟩⟩ := restore_ok_iff.mp h
  · obtain ⟨key, hkey, payload, henvelope, -, hversion, -⟩ := tryRestoreArtifactEnvelope_ok_iff.mp hearly
    exact .inr (.inl ⟨⟨key, hkey, payload, henvelope⟩, hversion⟩)
  · obtain ⟨run, -, -, -, -, -, hversion, -⟩ := restoreFrame_ok_iff.mp hframe
    rcases authenticate_ok hauth with ⟨rfl, hsigned⟩ | ⟨rfl, hrequire⟩
    · exact .inl ⟨hsigned, hversion⟩
    · exact .inr (.inr ⟨hrequire, hversion⟩)

/-! ## What is parsed when -/

/-- A decompression or a deserialisation. -/
def Parses (event : Event) : Prop :=
  (∃ input, event = .decompress input) ∨ ∃ input, event = .deserialise input

/-- The event says that a signature or a tag over all other bytes was found right. -/
def Genuine (R : SnapshotReader B) (bytes : Bytes) (event : Event) : Prop :=
  ∃ message sig, event = .verified message sig ∧ bytes = message ++ sig ∧
    ((∃ compressed kind, message = compressed ++ v3TrailerMagic ++ [SignatureKind.toByte kind] ∧
        R.Verifies kind message sig) ∨
      ∃ key ∈ R.candidateKeys, sig = (B.artifacts.hmacSha256 key message).toList)

/-- A verification parses nothing. -/
theorem only_verified {ε α : Type} (message sig : Bytes) (r : Except ε α) :
    Only (fun event => ¬ Parses event) (.perform (.verified message sig) r) := by
  refine Traced.only_perform ?_ r
  rintro (⟨_, h⟩ | ⟨_, h⟩)
  · cases h
  · cases h

theorem only_checkTag {P : Primitives} (key : Block) (message tag : Bytes) :
    Only (fun event => ¬ Parses event) (checkTag P key message tag) :=
  Only.ite (fun _ => only_verified _ _ _) fun _ => only_fail _

theorem leaves_checkTag {key : Block} (hkey : key ∈ R.candidateKeys) {message tag : Bytes}
    (hbytes : bytes = message ++ tag) : Leaves (R.Genuine bytes) (checkTag B.artifacts key message tag) := by
  intro _ h
  have htag := checkTag_ok.mp h
  refine ⟨.verified message tag, ?_, message, tag, rfl, hbytes, .inr ⟨key, hkey, htag⟩⟩
  rw [checkTag, if_pos htag.symm]
  exact mem_singleton_self _

theorem guarded_decodeEnvelope {key : Block} (hkey : key ∈ R.candidateKeys) (cap : Nat) :
    Guarded (R.Genuine bytes) Parses (decodeEnvelopeFromBytesWithCap B.artifacts bytes key cap) := by
  refine (Traced.only_quiet _).guarded.bind fun hashOnDisk _ => ?_
  exact (only_checkTag key _ _).guarded.bind_of_guard
    (leaves_checkTag hkey (take_append_drop _ _).symm)

theorem leaves_decodeEnvelope {key : Block} (hkey : key ∈ R.candidateKeys) (cap : Nat) :
    Leaves (R.Genuine bytes) (decodeEnvelopeFromBytesWithCap B.artifacts bytes key cap) := by
  refine Traced.leaves_bind fun hashOnDisk _ => ?_
  exact (leaves_checkTag hkey (take_append_drop _ _).symm).bind _

/-- No key of the list gets at the body without its tag, and no key succeeds without it. -/
theorem decodeWithKeys_guarded {keys : List Block} (hkeys : keys ⊆ R.candidateKeys) :
    Guarded (R.Genuine bytes) Parses (R.decodeWithKeys bytes keys) ∧
      Leaves (R.Genuine bytes) (R.decodeWithKeys bytes keys) := by
  induction keys with
  | nil => exact ⟨(only_fail _).guarded, leaves_fail _⟩
  | cons key keys ih =>
    obtain ⟨hkey, hkeys⟩ := cons_subset.mp hkeys
    obtain ⟨hguarded, hleaves⟩ := ih hkeys
    refine ⟨(guarded_decodeEnvelope hkey _).handle fun e => ?_, (leaves_decodeEnvelope hkey _).handle fun e => ?_⟩
    · cases e with
      | badHmac => exact hguarded
      | notFound _ | badMagic | badVersion _ | hashMismatch _ _ | decompression _ | tooLarge _ _ | io =>
        exact (only_fail _).guarded
    · cases e with
      | badHmac => exact hleaves
      | notFound _ | badMagic | badVersion _ | hashMismatch _ _ | decompression _ | tooLarge _ _ | io =>
        exact leaves_fail _

theorem guarded_tryRestore : Guarded (R.Genuine bytes) Parses (R.tryRestoreArtifactEnvelope clock bytes) := by
  unfold tryRestoreArtifactEnvelope
  split
  · exact (only_pure _).guarded
  split
  · exact (only_fail _).guarded
  obtain ⟨hguarded, hleaves⟩ := decodeWithKeys_guarded (List.Subset.refl R.candidateKeys)
  exact hguarded.bind_of_guard hleaves

theorem only_verifyV3Trailer (prefixLen : Nat) (kind : SignatureKind) :
    Only (fun event => ¬ Parses event) (R.verifyV3Trailer bytes prefixLen kind) := by
  refine Only.ite (fun _ => only_fail _) fun _ => ?_
  refine Only.ite (fun _ => only_fail _) fun _ => ?_
  refine Only.ite (fun _ => only_fail _) fun _ => ?_
  simp only
  split
  · exact only_fail _
  refine Only.ite (fun _ => only_fail _) fun _ => ?_
  rcases R.checkSignature_cases kind _ _ with ⟨-, hperform⟩ | ⟨-, e, hfail⟩
  · rw [hperform]
    exact only_verified _ _ _
  · rw [hfail]
    exact only_fail _

theorem only_authenticate : Only (fun event => ¬ Parses event) (R.authenticate F bytes) := by
  unfold authenticate
  split
  · exact (only_verifyV3Trailer _ _).bind fun _ _ => only_pure _
  · exact Only.ite (fun _ => only_fail _) fun _ => only_pure _

theorem leaves_authenticate (hrequire : R.requireSignature = true) :
    Leaves (R.Genuine bytes) (R.authenticate F bytes) := by
  unfold authenticate
  split
  · next kind prefixLen _ =>
    refine Leaves.bind (fun _ h => ?_) _
    obtain ⟨compressed, sig, -, hbytes, hverifies, hlog⟩ := verifyV3Trailer_ok h
    rw [hlog]
    exact ⟨_, mem_singleton_self _, _, sig, rfl, hbytes, .inl ⟨compressed, kind, rfl, hverifies⟩⟩
  · rw [if_pos hrequire]
    exact leaves_fail _

/-- A reader that requires signatures parses only behind one. -/
theorem guarded_restore (hrequire : R.requireSignature = true) :
    Guarded (R.Genuine bytes) Parses (R.restore F clock bytes) := by
  unfold restore restoreEarly
  split
  · exact (only_fail _).guarded
  refine Guarded.bind ?_ fun early _ => ?_
  · split
    · exact guarded_tryRestore
    · exact (only_pure _).guarded
  · cases early with
    | some snapshot => exact (only_pure _).guarded
    | none => exact only_authenticate.guarded.bind_of_guard (leaves_authenticate hrequire)

end SnapshotReader

open SnapshotReader in
/-- A reader that requires signatures accepts only what is signed, with version 3, or sealed, with
version 2, and parses nothing before it knows. No reader takes version 3 without a signature. -/
theorem restore_authenticates (B : Libraries) (F : Features) (R : SnapshotReader B) (clock : Clock)
    (bytes : Bytes) :
    (R.requireSignature = true →
      (∀ s, (R.restore F clock bytes).result = .ok s →
        (R.Signed bytes ∧ s.version = snapshotVersionV3) ∨ (R.Sealed bytes ∧ s.version = snapshotVersionV2)) ∧
      ∀ before event after, (R.restore F clock bytes).log = before ++ event :: after → Parses event →
        ∃ guard ∈ before, R.Genuine bytes guard) ∧
    ∀ s, (R.restore F clock bytes).result = .ok s → s.version = snapshotVersionV3 → R.Signed bytes := by
  refine ⟨fun hrequire => ⟨fun s h => ?_, guarded_restore hrequire⟩, fun s h hversion => ?_⟩
  · rcases restore_forms h with hsigned | hsealed | ⟨hnot, -⟩
    · exact .inl hsigned
    · exact .inr hsealed
    · exact nomatch hnot.symm.trans hrequire
  · have hversions : snapshotVersionV2 ≠ snapshotVersionV3 := by decide
    rcases restore_forms h with ⟨hsigned, -⟩ | ⟨-, hother⟩ | ⟨-, hother⟩
    · exact hsigned
    · exact absurd (hother.symm.trans hversion) hversions
    · exact absurd (hother.symm.trans hversion) hversions

/-- The small snapshot, stored with version 3. -/
def signedFrame : Bytes :=
  leBytes 8 ({ smallSnapshot with version := snapshotVersionV3 } : Snapshot).payload.length ++
    ({ smallSnapshot with version := snapshotVersionV3 } : Snapshot).payload

def signedBytes : Bytes :=
  signedFrame ++ v3TrailerMagic ++ [hmacSha256.toByte] ++ zeroBlock.toList

def strictReader : SnapshotReader storedLibraries := { storedReader with requireSignature := true }

theorem restore_signedBytes : strictReader.restore ⟨true, true⟩ (.ok 0) signedBytes =
    ⟨[.verified (signedFrame ++ v3TrailerMagic ++ [hmacSha256.toByte]) zeroBlock.toList,
        .decompress signedFrame, .deserialise (signedFrame.drop 8)],
      .ok { smallSnapshot with version := snapshotVersionV3 }⟩ := by
  decide +kernel

theorem restore_authenticates_signed :
    (strictReader.Signed signedBytes ∧ snapshotVersionV3 = snapshotVersionV3 ∨
      strictReader.Sealed signedBytes ∧ snapshotVersionV3 = snapshotVersionV2) ∧
    strictReader.Signed signedBytes ∧
      ∃ guard ∈ [Event.verified (signedFrame ++ v3TrailerMagic ++ [hmacSha256.toByte])
        zeroBlock.toList], strictReader.Genuine signedBytes guard := by
  obtain ⟨hstrict, hthree⟩ := restore_authenticates storedLibraries ⟨true, true⟩ strictReader (.ok 0)
    signedBytes
  obtain ⟨haccept, hguard⟩ := hstrict rfl
  rw [restore_signedBytes] at haccept hguard hthree
  exact ⟨haccept _ rfl, hthree _ rfl rfl, hguard _ _ _ rfl (.inl ⟨_, rfl⟩)⟩

end TensorWasm.Snapshots
