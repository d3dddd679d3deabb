import TensorWasm.Jit.Registry
import TensorWasm.Jit.Ir

/-!
# What is hashed and what is signed

The byte streams behind a blueprint's fingerprint and a manifest's signature. Both are sequences of
fields that are of fixed width or preceded by their length, so they can be read off one after the
other: equal streams have equal fields. Lengths are written in eight bytes, which is enough for any
value in a 64-bit address space.
-/

namespace TensorWasm.Jit

open Lib
open TensorWasmOp (digestBytes)

/-! ## Blueprints -/

theorem fingerprintTag_inj {e e' : ElemType} (h : e.fingerprintTag = e'.fingerprintTag) : e = e' := by
  cases e <;> cases e' <;> first | rfl | exact absurd h (by decide)

theorem laneOpBytes_append_inj {tag : UInt8} {e e' : ElemType} {n n' : UInt32} {x y : Bytes}
    (h : laneOpBytes tag e n ++ x = laneOpBytes tag e' n' ++ y) : e = e' ∧ n = n' ∧ x = y := by
  have htail := (List.cons.inj h).2
  obtain ⟨helem, hrest⟩ := List.cons.inj htail
  obtain ⟨hlanes, hx⟩ := prefixCode_uint32 hrest
  exact ⟨fingerprintTag_inj helem, hlanes, hx⟩

theorem matMulBytes_append_inj {m m' n n' k k' : UInt32} {x y : Bytes}
    (h : digestBytes (.matMul m n k) ++ x = digestBytes (.matMul m' n' k') ++ y) :
    m = m' ∧ n = n' ∧ k = k' ∧ x = y := by
  simp only [digestBytes, List.append_assoc] at h
  have htail := (List.cons.inj h).2
  obtain ⟨hm, htail⟩ := prefixCode_uint32 htail
  obtain ⟨hn, htail⟩ := prefixCode_uint32 htail
  obtain ⟨hk, hx⟩ := prefixCode_uint32 htail
  exact ⟨hm, hn, hk, hx⟩

/-- The record of an op: its first byte tells which op it is, and the rest has fixed width. -/
theorem prefixCode_digestBytes : PrefixCode digestBytes := by
  intro a b x y h
  cases a <;> cases b <;>
    first
    | exact absurd (List.cons.inj h).1 (by decide)
    | (obtain ⟨rfl, rfl, hx⟩ := laneOpBytes_append_inj h
       exact ⟨rfl, hx⟩)
    | skip
  case matMul.matMul m n k m' n' k' =>
    obtain ⟨rfl, rfl, rfl, hx⟩ := matMulBytes_append_inj h
    exact ⟨rfl, hx⟩
  case barrier.barrier => exact ⟨rfl, (List.cons.inj h).2⟩

/-- The entry name and the op list fit in a 64-bit address space, as any `String` and `Vec` do. -/
def TensorWasmKernelBlueprint.Representable (bp : TensorWasmKernelBlueprint) : Prop :=
  bp.entry.utf8ByteSize < 2 ^ 64 ∧ bp.ops.length < 2 ^ 64

theorem digestInput_inj {bp bp' : TensorWasmKernelBlueprint} (hbp : bp.Representable)
    (hbp' : bp'.Representable) (h : bp.digestInput = bp'.digestInput) : bp = bp' := by
  obtain ⟨entry, ops, ⟨threads, block⟩, shared⟩ := bp
  obtain ⟨entry', ops', ⟨threads', block'⟩, shared'⟩ := bp'
  simp only [TensorWasmKernelBlueprint.digestInput, List.append_assoc] at h
  replace h := List.append_cancel_left h
  obtain ⟨hentry, hops⟩ := counted_append_inj (w := 8) hbp.1 hbp'.1 h
  obtain ⟨hcount, hrest⟩ := leBytes_append_inj hbp.2 hbp'.2 hops
  obtain ⟨rfl, hgrid⟩ := prefixCode_digestBytes.flatMap hcount hrest
  obtain ⟨rfl, hblock⟩ := prefixCode_uint32 hgrid
  obtain ⟨rfl, hlast⟩ := prefixCode_uint32 hblock
  have hshared : leBytes 4 shared.toNat ++ [] = leBytes 4 shared'.toNat ++ [] := by
    rw [List.append_nil, List.append_nil]
    exact hlast
  obtain ⟨rfl, -⟩ := prefixCode_uint32 hshared
  obtain rfl := utf8Bytes_inj hentry
  rfl

/-- The 64-bit hash of a stream that keys the kernel cache. -/
def cacheHash (blake3 : Bytes → Bytes) (stream : Bytes) : UInt64 :=
  UInt64.ofNat (ofLeBytes ((blake3 stream).take 8))

/-- **Distinct blueprints have distinct identities**: their streams differ, so a hash that does not
collide on the two streams tells them apart, the whole digest as well as the 64-bit key. -/
theorem blueprint_identity {bp bp' : TensorWasmKernelBlueprint} (hbp : bp.Representable)
    (hbp' : bp'.Representable) :
    (bp.digestInput = bp'.digestInput → bp.entry = bp'.entry ∧ bp.ops = bp'.ops ∧
      bp.gridHint = bp'.gridHint ∧ bp.gridHint.launchGeometry = bp'.gridHint.launchGeometry) ∧
    ∀ blake3 : Bytes → Bytes, bp ≠ bp' →
      ((blake3 bp.digestInput = blake3 bp'.digestInput → bp.digestInput = bp'.digestInput) →
        blake3 bp.digestInput ≠ blake3 bp'.digestInput) ∧
      ((cacheHash blake3 bp.digestInput = cacheHash blake3 bp'.digestInput →
          bp.digestInput = bp'.digestInput) → bp.fingerprint blake3 ≠ bp'.fingerprint blake3) := by
  refine ⟨?_, ?_⟩
  · intro h
    obtain rfl := digestInput_inj hbp hbp' h
    exact ⟨rfl, rfl, rfl, rfl⟩
  · intro blake3 hne
    have hstreams : bp.digestInput ≠ bp'.digestInput := fun h => hne (digestInput_inj hbp hbp' h)
    exact ⟨fun hfree h => hstreams (hfree h), fun hfree h => hstreams (hfree h)⟩

/-- Two kernels that differ in the element type only. -/
theorem blueprint_identity_element :
    (TensorWasmKernelBlueprint.mk "k" [.vecAdd .i32 4] ⟨256, 128⟩ 0).digestInput ≠
      (TensorWasmKernelBlueprint.mk "k" [.vecAdd .f32 4] ⟨256, 128⟩ 0).digestInput := by
  intro h
  have hint : (TensorWasmKernelBlueprint.mk "k" [.vecAdd .i32 4] ⟨256, 128⟩ 0).Representable := by
    constructor <;> decide
  have hfloat : (TensorWasmKernelBlueprint.mk "k" [.vecAdd .f32 4] ⟨256, 128⟩ 0).Representable := by
    constructor <;> decide
  have hops := ((blueprint_identity hint hfloat).1 h).2.1
  exact absurd hops (by decide)

/-! ## Manifests -/

/-- The strings of a manifest fit in a 64-bit address space, as any `String` does. -/
def KernelManifest.Representable (m : KernelManifest) : Prop :=
  m.name.utf8ByteSize < 2 ^ 64 ∧ m.version.utf8ByteSize < 2 ^ 64 ∧ m.publisher.utf8ByteSize < 2 ^ 64

instance (m : KernelManifest) : Decidable m.Representable := inferInstanceAs (Decidable (_ ∧ _ ∧ _))

/-- Two manifests agree in the fields the signature covers. -/
def SignedFieldsEq (m m' : KernelManifest) : Prop :=
  m.name = m'.name ∧ m.version = m'.version ∧ m.smVersion = m'.smVersion ∧ m.digest = m'.digest ∧
    m.publisher = m'.publisher ∧ m.publishedUnixMs = m'.publishedUnixMs

theorem lenPrefixed_append_inj {as bs x y : Bytes} (has : as.length < 2 ^ 64) (hbs : bs.length < 2 ^ 64)
    (h : lenPrefixed as ++ x = lenPrefixed bs ++ y) : as = bs ∧ x = y := by
  simp only [lenPrefixed, List.append_assoc] at h
  exact counted_append_inj has hbs h

theorem canonicalSignedBytes_inj {m m' : KernelManifest} (hm : m.Representable) (hm' : m'.Representable)
    (h : m.canonicalSignedBytes = m'.canonicalSignedBytes) : SignedFieldsEq m m' := by
  have hword : ∀ w n : Nat, w < 2 ^ 64 → (leBytes w n).length < 2 ^ 64 := by
    intro w n hw
    rw [length_leBytes]
    exact hw
  have hdigest : ∀ d : Vector UInt8 32, d.toList.length < 2 ^ 64 := by
    intro d
    rw [Vector.length_toList]
    decide
  replace h := List.append_cancel_left h
  obtain ⟨hname, h⟩ := lenPrefixed_append_inj hm.1 hm'.1 h
  obtain ⟨hversion, h⟩ := lenPrefixed_append_inj hm.2.1 hm'.2.1 h
  obtain ⟨hpublisher, h⟩ := lenPrefixed_append_inj hm.2.2 hm'.2.2 h
  obtain ⟨htime, h⟩ := lenPrefixed_append_inj (hword 8 _ (by decide)) (hword 8 _ (by decide)) h
  obtain ⟨hsm, h⟩ := lenPrefixed_append_inj (hword 4 _ (by decide)) (hword 4 _ (by decide)) h
  have hlast : lenPrefixed m.digest.toList ++ [] = lenPrefixed m'.digest.toList ++ [] := by
    rw [List.append_nil, List.append_nil]
    exact h
  obtain ⟨hbytes, -⟩ := lenPrefixed_append_inj (hdigest _) (hdigest _) hlast
  refine ⟨utf8Bytes_inj hname, utf8Bytes_inj hversion, ?_, Vector.toList_inj.mp hbytes, utf8Bytes_inj hpublisher, ?_⟩
  · exact UInt32.toNat_inj.mp (leBytes_inj (UInt32.toNat_lt _) (UInt32.toNat_lt _) hsm)
  · exact UInt64.toNat_inj.mp (leBytes_inj (UInt64.toNat_lt _) (UInt64.toNat_lt _) htime)

theorem verifyManifestSignature_eq_ok {hmac : Bytes → Bytes} {m : KernelManifest} :
    verifyManifestSignature hmac m = .ok () ↔ hmac m.canonicalSignedBytes = m.signature.toList := by
  unfold verifyManifestSignature
  split
  · rename_i h
    exact iff_of_true rfl h
  · rename_i h
    exact iff_of_false nofun h

/-- **Signed bytes determine the signed fields**, so one signature verifies for two manifests only if
they agree in these, where the HMAC does not collide on the two byte strings. -/
theorem signature_binds_fields {m m' : KernelManifest} (hm : m.Representable)
    (hm' : m'.Representable) :
    (m.canonicalSignedBytes = m'.canonicalSignedBytes → SignedFieldsEq m m') ∧
    ∀ hmac : Bytes → Bytes,
      (hmac m.canonicalSignedBytes = hmac m'.canonicalSignedBytes →
        m.canonicalSignedBytes = m'.canonicalSignedBytes) →
      m.signature = m'.signature → verifyManifestSignature hmac m = .ok () →
      verifyManifestSignature hmac m' = .ok () → SignedFieldsEq m m' := by
  refine ⟨canonicalSignedBytes_inj hm hm', ?_⟩
  intro hmac hfree hsig hok hok'
  rw [verifyManifestSignature_eq_ok] at hok hok'
  refine canonicalSignedBytes_inj hm hm' (hfree ?_)
  rw [hok, hok', hsig]

/-- A manifest for the examples below. -/
def addManifest : KernelManifest :=
  ⟨"add", "1.0.0", 80, Vector.replicate 32 1, Vector.replicate 32 2, 5, "ops", none⟩

theorem signature_binds_version :
    addManifest.canonicalSignedBytes ≠
      { addManifest with version := "1.0.1" }.canonicalSignedBytes := by
  intro h
  have hold : addManifest.Representable := by decide
  have hnew : { addManifest with version := "1.0.1" }.Representable := by decide
  exact absurd ((signature_binds_fields hold hnew).1 h).2.1 (by decide)

/-- A tag that depends on the number of bytes that are signed. -/
def lengthTag (bytes : Bytes) : Vector UInt8 32 := Vector.replicate 32 (UInt8.ofNat bytes.length)

/-- `addManifest` with its tag. -/
def signedAdd : KernelManifest := { addManifest with signature := lengthTag addManifest.canonicalSignedBytes }

/-- The launch geometry is not signed: a signed manifest still verifies after its geometry is changed. -/
theorem geometry_not_signed :
    signedAdd ≠ { signedAdd with launchGeometry := some (1, 1) } ∧
      verifyManifestSignature (fun bytes => (lengthTag bytes).toList) signedAdd = .ok () ∧
      verifyManifestSignature (fun bytes => (lengthTag bytes).toList)
        { signedAdd with launchGeometry := some (1, 1) } = .ok () := by
  refine ⟨?_, verifyManifestSignature_eq_ok.mpr rfl, verifyManifestSignature_eq_ok.mpr rfl⟩
  intro h
  have hgeometry : none = some ((1 : UInt32), (1 : UInt32)) :=
    congrArg KernelManifest.launchGeometry h
  exact absurd hgeometry (by decide)

end TensorWasm.Jit
