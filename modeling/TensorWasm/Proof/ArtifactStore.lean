import TensorWasm.Lib.Run
import TensorWasm.Proof.ArtifactEnvelope

/-!
# The disk store as a map

A session is a directory with the store that is opened on it now; rotating keys opens another store on
the same directory. It is compared with the in-memory store, call by call. One payload may be on disk
several times, once for each key it was put under; `Represents` says that every file is a copy of an
entry of the map, and that every entry has a copy.
-/

namespace TensorWasm.Artifacts

open Lib List
open AList (erase lookup_eq_none lookup_erase lookup_erase_ne lookup_insert lookup_insert_ne lookup_isSome
  mem_erase mem_insert)
open Option (bind_eq_bind bind_some isSome_of_eq_some)
open DiskArtifactStore (resolveReadKey)

variable {P : Primitives}

/-! ## Names -/

theorem hexVal_digitChar {d : Nat} (h : d < 16) : hexVal (Nat.digitChar d) = some d := by
  have hall : ∀ d : Fin 16, hexVal (Nat.digitChar d) = some d.val := by decide
  exact hall ⟨d, h⟩

theorem digitChar_ne_dot {d : Nat} (h : d < 16) : Nat.digitChar d ≠ '.' := by
  intro hdot
  have hval := hexVal_digitChar h
  rw [hdot] at hval
  cases hval

theorem byte_div_lt (b : UInt8) : b.toNat / 16 < 16 := by
  have hb := b.toNat_lt
  omega

theorem byte_mod_lt (b : UInt8) : b.toNat % 16 < 16 := Nat.mod_lt _ (by decide)

theorem hexPairs_hexInto (bytes : Bytes) : hexPairs (hexInto bytes) = some bytes := by
  induction bytes with
  | nil => rfl
  | cons b bytes ih =>
    have hbyte : UInt8.ofNat (b.toNat / 16 * 16 + b.toNat % 16) = b := by
      rw [Nat.div_add_mod' b.toNat 16, UInt8.ofNat_toNat]
    rw [hexInto, flatMap_cons, ← hexInto]
    simp only [cons_append, nil_append, hexPairs, hexVal_digitChar (byte_div_lt b),
      hexVal_digitChar (byte_mod_lt b), ih, bind_eq_bind, bind_some, hbyte]
    rfl

theorem length_hexInto (bytes : Bytes) : (hexInto bytes).length = 2 * bytes.length := by
  induction bytes with
  | nil => rfl
  | cons b bytes ih =>
    rw [hexInto, flatMap_cons, ← hexInto, length_append, ih, length_cons]
    simp only [length_cons, length_nil]
    omega

variable {bytes : Bytes}

theorem mem_hexInto {c : Char} (h : c ∈ hexInto bytes) : ∃ d < 16, c = Nat.digitChar d := by
  obtain ⟨b, -, hc⟩ := mem_flatMap.mp h
  simp only [mem_cons, not_mem_nil, or_false] at hc
  rcases hc with rfl | rfl
  · exact ⟨_, byte_div_lt b, rfl⟩
  · exact ⟨_, byte_mod_lt b, rfl⟩

theorem parseHashHex_hexInto (hash : ContentHash) : parseHashHex (hexInto hash.toList) = some hash := by
  have hlength : (hexInto hash.toList).length = 64 := by rw [length_hexInto, hash.toList_length]
  rw [parseHashHex, if_neg (not_not_intro hlength), hexPairs_hexInto]
  simp only [bind_eq_bind, bind_some, hash.toList_length, dite_true]
  rfl

/-- The name of the file of a hash under a key. -/
def blobName (P : Primitives) (hash : ContentHash) (key : Block) : FileName :=
  hexInto hash.toList ++ '.' :: (keyFingerprintHex P key ++ ".bin".toList)

theorem validatedHashSegment_eq (hash : ContentHash) : validatedHashSegment hash = .ok (hexInto hash.toList) := by
  have hlength : (hexInto hash.toList).length = 64 := by rw [length_hexInto, hash.toList_length]
  have hdigits : (hexInto hash.toList).all fun c => (hexVal c).isSome := by
    rw [all_eq_true]
    intro c hc
    obtain ⟨d, hd, rfl⟩ := mem_hexInto hc
    rw [hexVal_digitChar hd]
    rfl
  rw [validatedHashSegment]
  exact if_pos ⟨hlength, hdigits⟩

/-- The guard on the segment never fires. -/
@[simp] theorem pathForKey_eq (hash : ContentHash) (key : Block) :
    pathForKey hash (keyFingerprintHex P key) = .ok (blobName P hash key) := by
  rw [pathForKey, validatedHashSegment_eq]
  rfl

theorem stripSuffix_append (suffix name : List Char) : stripSuffix suffix (name ++ suffix) = some name := by
  have hsuffix : suffix.isSuffixOf (name ++ suffix) := by simp
  rw [stripSuffix, if_pos hsuffix, length_append, Nat.add_sub_cancel, take_left]

variable {fp : List Char}

theorem rtakeWhile_segment (hfp : ∀ c ∈ fp, c ≠ '.') {segment : List Char} :
    (segment ++ '.' :: fp).rtakeWhile (· ≠ '.') = fp := by
  rw [List.rtakeWhile, reverse_append, reverse_cons, append_assoc, takeWhile_append_of_pos (by simpa using hfp)]
  simp

theorem splitAtLastDot_append (hfp : ∀ c ∈ fp, c ≠ '.') (segment : List Char) :
    splitAtLastDot (segment ++ '.' :: fp) = some (segment, fp) := by
  rw [splitAtLastDot, rtakeWhile_segment hfp]
  simp only [length_append, length_cons]
  rw [if_neg (by omega)]
  have hcut : segment.length + (fp.length + 1) - fp.length - 1 = segment.length := by omega
  rw [hcut, take_left]

theorem fingerprint_ne_dot (P : Primitives) (key : Block) : ∀ c ∈ keyFingerprintHex P key, c ≠ '.' := by
  intro c hc
  obtain ⟨d, hd, rfl⟩ := mem_hexInto hc
  exact digitChar_ne_dot hd

theorem parse_blobName (hash : ContentHash) (key : Block) :
    parseBlobFilename (blobName P hash key) = some (hash, keyFingerprintHex P key) := by
  have hname : blobName P hash key =
      (hexInto hash.toList ++ '.' :: keyFingerprintHex P key) ++ ".bin".toList := by
    simp [blobName]
  rw [parseBlobFilename, hname, stripSuffix_append]
  simp only [bind_eq_bind, bind_some, splitAtLastDot_append (fingerprint_ne_dot P key), parseHashHex_hexInto]
  rfl

variable {key : Block} {hash : ContentHash}

theorem blobName_inj {hash' : ContentHash} {key' : Block} (h : blobName P hash key = blobName P hash' key') :
    hash = hash' ∧ keyFingerprintHex P key = keyFingerprintHex P key' := by
  have hparse := (parse_blobName hash key).symm.trans ((congrArg _ h).trans (parse_blobName hash' key'))
  exact Prod.mk.inj (Option.some.inj hparse)

/-- A sidecar is never taken for a blob. -/
theorem metaPath_ne_blobName {hash' : ContentHash} {path : FileName}
    (h : metaPathForKey hash fp = .ok path) : blobName P hash' key ≠ path := by
  rw [metaPathForKey, validatedHashSegment_eq] at h
  cases h
  intro heq
  -- the last letters differ
  have hlast := congrArg (fun name : List Char => name.reverse.take 2) heq
  simp [blobName] at hlast

/-! ## Sessions -/

inductive Action
  /-- Open the directory under another store. -/
  | rotate (store : DiskArtifactStore)
  | put (payload : Bytes)
  | get (hash : ContentHash)
  | contains (hash : ContentHash)
  | list
  | remove (hash : ContentHash)

inductive Answer
  | rotated
  | put (r : Except ArtifactError ContentHash)
  | get (r : Except ArtifactError Bytes)
  | contains (r : Except ArtifactError Bool)
  | list (hashes : List ContentHash)
  | remove (r : Except ArtifactError Bool)

/-- The order of a listing is left open by the store's contract. -/
def Answer.Same : Answer → Answer → Prop
  | .list hashes, .list hashes' => hashes.Perm hashes'
  | a, b => a = b

/-- A directory and the store opened on it; `used` keeps the keys something has been put under. -/
structure Session where
  store : DiskArtifactStore
  dir : Directory
  used : List Block

def Session.step (P : Primitives) (s : Session) : Action → Answer × Session
  | .rotate store => (.rotated, { s with store := store })
  | .put payload =>
    (.put (s.store.put P s.dir payload).1,
      ⟨s.store, (s.store.put P s.dir payload).2, s.store.keyProvider.activeKey :: s.used⟩)
  | .get hash => (.get (s.store.get P s.dir hash).result, s)
  | .contains hash => (.contains (s.store.contains P s.dir hash), s)
  | .list => (.list (s.store.list P s.dir), s)
  | .remove hash =>
    (.remove (s.store.remove P s.dir hash).1, { s with dir := (s.store.remove P s.dir hash).2 })

/-- The same calls on the in-memory store, for which keys play no part. -/
def InMemoryArtifactStore.step (P : Primitives) (M : InMemoryArtifactStore) :
    Action → Answer × InMemoryArtifactStore
  | .rotate _ => (.rotated, M)
  | .put payload => (.put (M.put P payload).1, (M.put P payload).2)
  | .get hash => (.get (M.get hash), M)
  | .contains hash => (.contains (.ok (M.contains hash)), M)
  | .list => (.list M.list, M)
  | .remove hash => (.remove (.ok (M.remove hash).1), (M.remove hash).2)

/-- A first session on a directory that is not there yet. -/
def Session.initial (store : DiskArtifactStore) : Session := ⟨store, ∅, []⟩

/-- At most one of the keys in use has a file for the hash. -/
def Session.HeldOnce (P : Primitives) (s : Session) (hash : ContentHash) : Prop :=
  ∀ key ∈ s.used, ∀ key' ∈ s.used, blobName P hash key ∈ s.dir → blobName P hash key' ∈ s.dir → key = key'

/-- The calls that are compared: keys in use stay accepted, payloads are within the cap, and what is
removed is held once. All keys come from `K` and all payloads from `L`. -/
def Session.Allowed (P : Primitives) (K : Set Block) (L : Set Bytes) (s : Session) : Action → Prop
  | .rotate store => (∀ key ∈ s.used, key ∈ store.keyProvider.readKeys) ∧
      ∀ key ∈ store.keyProvider.readKeys, key ∈ K
  | .put payload => payload ∈ L ∧ payload.length ≤ maxPayloadLen
  | .remove hash => s.HeldOnce P hash
  | _ => True

/-- Compression does not fail on a payload within the cap. -/
def Zstd.Reliable (Z : Zstd) : Prop :=
  ∀ level pieces, pieces.flatten.length ≤ maxPayloadLen → ∃ c, Z.encode level pieces = .ok c

/-- Every file is a copy of an entry of the map, and every entry has a copy. -/
structure Represents (P : Primitives) (K : Set Block) (L : Set Bytes) (s : Session)
    (M : InMemoryArtifactStore) : Prop where
  used_accepted : ∀ key ∈ s.used, key ∈ s.store.keyProvider.readKeys
  accepted_known : ∀ key ∈ s.store.keyProvider.readKeys, key ∈ K
  file : ∀ name bytes, s.dir.lookup name = some bytes → ∃ key ∈ s.used, ∃ payload,
    name = blobName P (P.blake3 payload) key ∧ IsEnvelope P maxDecompressedLen key bytes payload ∧
      M.lookup (P.blake3 payload) = some payload
  entry : ∀ hash payload, M.lookup hash = some payload → hash = P.blake3 payload ∧ payload ∈ L ∧
    ∃ key ∈ s.used, blobName P hash key ∈ s.dir

theorem DiskArtifactStore.resolveFrom_eq (dir : Directory) (hash : ContentHash) (keys : List Block) :
    resolveFrom P dir hash keys =
      .ok ((keys.find? fun key => decide (blobName P hash key ∈ dir)).map fun key =>
        (blobName P hash key, key)) := by
  induction keys with
  | nil => rfl
  | cons key keys ih =>
    rw [resolveFrom, pathForKey_eq, ok_bind, find?_cons]
    by_cases hmem : blobName P hash key ∈ dir
    · rw [if_pos hmem, decide_eq_true hmem]
      rfl
    · rw [if_neg hmem, decide_eq_false hmem]
      exact ih

variable {hash : ContentHash} {D : DiskArtifactStore} {dir : Directory}

theorem DiskArtifactStore.mem_list :
    hash ∈ D.list P dir ↔ ∃ name bytes, dir.lookup name = some bytes ∧
      listed (D.keyProvider.readKeys.map (keyFingerprintHex P)) name bytes = some hash := by
  rw [list, mem_dedup, mem_filterMap]
  constructor
  · rintro ⟨⟨name, bytes⟩, hentry, hlisted⟩
    exact ⟨name, bytes, AList.mem_lookup_iff.mpr hentry, hlisted⟩
  · rintro ⟨name, bytes, hlookup, hlisted⟩
    exact ⟨⟨name, bytes⟩, AList.mem_lookup_iff.mp hlookup, hlisted⟩

theorem DiskArtifactStore.listed_blobName {accepted : List (List Char)} {contents : Bytes}
    (hfp : keyFingerprintHex P key ∈ accepted) (hlong : artifactHeaderLen + artifactHmacLen ≤ contents.length) :
    listed accepted (blobName P hash key) contents = some hash := by
  rw [listed, parse_blobName]
  exact if_pos ⟨hfp, hlong⟩

variable {payload : Bytes}

theorem IsEnvelope.min_length {cap : Nat}
    (h : IsEnvelope P cap key bytes payload) : artifactHeaderLen + artifactHmacLen ≤ bytes.length := by
  obtain ⟨body, rfl, -⟩ := h.sealed
  have hlength : (sealEnvelope P key (P.blake3 payload) body).length =
      artifactHeaderLen + body.length + artifactHmacLen := length_frame (length_tag _ _)
  omega

/-- What `put` does when the payload is within the cap and can be compressed. -/
theorem DiskArtifactStore.put_eq {body : Bytes} (hsize : payload.length ≤ maxPayloadLen)
    (hencode : P.zstd.encode D.zstdLevel [payload] = .ok body) (dir : Directory) :
    D.put P dir payload = (.ok (P.blake3 payload),
      dir.insert (blobName P (P.blake3 payload) D.keyProvider.activeKey)
        (sealEnvelope P D.keyProvider.activeKey (P.blake3 payload) body)) := by
  rw [put, if_neg (Nat.not_lt_of_le hsize), publish, pathFor, pathForKey_eq, hencode]

/-- What `remove` does to the directory. -/
theorem DiskArtifactStore.remove_eq (h : D.resolveReadKey P dir hash = .ok (some (blobName P hash key, key))) :
    ∃ sidecar, (∀ hash' key', blobName P hash' key' ≠ sidecar) ∧
      D.remove P dir hash = (.ok true, (dir.erase (blobName P hash key)).erase sidecar) := by
  obtain ⟨sidecar, hsidecar⟩ : ∃ sidecar, metaPathForKey hash (keyFingerprintHex P key) = .ok sidecar := by
    rw [metaPathForKey, validatedHashSegment_eq]
    exact ⟨_, rfl⟩
  refine ⟨sidecar, fun _ _ => metaPath_ne_blobName hsidecar, ?_⟩
  simp only [remove, h, hsidecar]

section Represented

variable {K : Set Block} {L : Set Bytes} {s : Session} {M : InMemoryArtifactStore}
  (hrep : Represents P K L s M) (hK : Set.InjOn (keyFingerprintHex P) K)
include hrep hK

/-- A file under an accepted key is a copy of the entry its name says, under that key. -/
theorem copy_of_file (hkey : key ∈ s.store.keyProvider.readKeys)
    (hfile : s.dir.lookup (blobName P hash key) = some bytes) :
    key ∈ s.used ∧ ∃ payload, IsEnvelope P maxDecompressedLen key bytes payload ∧
      P.blake3 payload = hash ∧ M.lookup hash = some payload := by
  obtain ⟨key', hkey', payload, hname, henvelope, hlookup⟩ := hrep.file _ _ hfile
  obtain ⟨rfl, hfp⟩ := blobName_inj hname
  have hknown := hrep.accepted_known key' (hrep.used_accepted key' hkey')
  obtain rfl := hK (hrep.accepted_known key hkey) hknown hfp
  exact ⟨hkey', payload, henvelope, rfl, hlookup⟩

/-- Resolving a hash misses exactly if the map has no entry, and else finds a copy of the entry. -/
theorem resolve_cases (hash : ContentHash) :
    (M.lookup hash = none ∧ s.store.resolveReadKey P s.dir hash = .ok none) ∨
      ∃ key bytes payload, s.store.resolveReadKey P s.dir hash = .ok (some (blobName P hash key, key)) ∧
        key ∈ s.used ∧ s.dir.lookup (blobName P hash key) = some bytes ∧
        IsEnvelope P maxDecompressedLen key bytes payload ∧ P.blake3 payload = hash ∧
        M.lookup hash = some payload := by
  rw [resolveReadKey, DiskArtifactStore.resolveFrom_eq]
  cases hfind : s.store.keyProvider.readKeys.find? fun key => decide (blobName P hash key ∈ s.dir) with
  | none =>
    refine .inl ⟨?_, rfl⟩
    cases hlookup : M.lookup hash with
    | none => rfl
    | some payload =>
      obtain ⟨-, -, key, hkey, hmem⟩ := hrep.entry hash payload hlookup
      have hmiss := List.find?_eq_none.mp hfind key (hrep.used_accepted key hkey)
      exact absurd (decide_eq_true hmem) hmiss
  | some key =>
    have hkey := mem_of_find?_eq_some hfind
    have hfound := List.find?_some hfind
    have hmem : blobName P hash key ∈ s.dir := of_decide_eq_true hfound
    obtain ⟨bytes, hbytes⟩ := Option.isSome_iff_exists.mp (lookup_isSome.mpr hmem)
    obtain ⟨hused, payload, henvelope, hhash, hlookup⟩ := copy_of_file hrep hK hkey hbytes
    exact .inr ⟨key, bytes, payload, rfl, hused, hbytes, henvelope, hhash, hlookup⟩

theorem get_agrees (hash : ContentHash) : (s.store.get P s.dir hash).result = M.get hash := by
  rw [DiskArtifactStore.get, Traced.bind_result, Traced.quiet_result, DiskArtifactStore.openBlob,
    InMemoryArtifactStore.get]
  rcases resolve_cases hrep hK hash with
    ⟨hnone, hresolve⟩ | ⟨key, bytes, payload, hresolve, -, hfile, henvelope, hhash, hlookup⟩
  · rw [hresolve, hnone]
    rfl
  · rw [hresolve, hlookup, ok_bind]
    simp only [hfile]
    exact DiskArtifactStore.getBlob_ok_iff.mpr ⟨henvelope, hhash⟩

theorem contains_agrees (hash : ContentHash) : s.store.contains P s.dir hash = .ok (M.contains hash) := by
  rw [DiskArtifactStore.contains, InMemoryArtifactStore.contains]
  rcases resolve_cases hrep hK hash with ⟨hnone, hresolve⟩ | ⟨key, bytes, payload, hresolve, -, -, -, -, hlookup⟩
  · rw [hresolve, decide_eq_false (lookup_eq_none.mp hnone)]
    rfl
  · have hmem : hash ∈ M := lookup_isSome.mp (by rw [hlookup]; rfl)
    rw [hresolve, decide_eq_true hmem]
    rfl

theorem list_agrees : (s.store.list P s.dir).Perm M.list := by
  have hmem : ∀ hash, hash ∈ s.store.list P s.dir ↔ hash ∈ M.list := by
    intro hash
    rw [DiskArtifactStore.mem_list]
    constructor
    · rintro ⟨name, bytes, hfile, hlisted⟩
      obtain ⟨key, hkey, payload, rfl, henvelope, hlookup⟩ := hrep.file name bytes hfile
      have hfp := mem_map_of_mem (f := keyFingerprintHex P) (hrep.used_accepted key hkey)
      rw [DiskArtifactStore.listed_blobName hfp henvelope.min_length] at hlisted
      cases hlisted
      exact lookup_isSome.mp (by rw [hlookup]; rfl)
    · intro hentry
      obtain ⟨payload, hlookup⟩ := Option.isSome_iff_exists.mp (lookup_isSome.mpr hentry)
      obtain ⟨-, -, key, hkey, hname⟩ := hrep.entry hash payload hlookup
      obtain ⟨bytes, hfile⟩ := Option.isSome_iff_exists.mp (lookup_isSome.mpr hname)
      obtain ⟨-, _, henvelope, -, -⟩ := copy_of_file hrep hK (hrep.used_accepted key hkey) hfile
      refine ⟨_, bytes, hfile, DiskArtifactStore.listed_blobName ?_ henvelope.min_length⟩
      exact mem_map_of_mem (hrep.used_accepted key hkey)
  exact (perm_ext_iff_of_nodup (nodup_dedup _) (AList.keys_nodup M)).mpr hmem

omit hK in
theorem put_represents (hL : Set.InjOn P.blake3 L) (hpayload : payload ∈ L)
    (henvelope : IsEnvelope P maxDecompressedLen s.store.keyProvider.activeKey bytes payload) :
    Represents P K L
      ⟨s.store, s.dir.insert (blobName P (P.blake3 payload) s.store.keyProvider.activeKey) bytes,
        s.store.keyProvider.activeKey :: s.used⟩
      (AList.insert (P.blake3 payload) payload M) where
  used_accepted := by
    intro key hkey
    rcases mem_cons.mp hkey with rfl | hkey
    · exact s.store.keyProvider.active_mem
    · exact hrep.used_accepted key hkey
  accepted_known := hrep.accepted_known
  file := by
    intro name contents hfile
    by_cases hname : name = blobName P (P.blake3 payload) s.store.keyProvider.activeKey
    · subst hname
      rw [lookup_insert] at hfile
      cases hfile
      exact ⟨_, mem_cons_self, payload, rfl, henvelope, lookup_insert M⟩
    · rw [lookup_insert_ne hname] at hfile
      obtain ⟨key, hkey, payload', hname', henvelope', hlookup⟩ := hrep.file name contents hfile
      refine ⟨key, mem_cons_of_mem _ hkey, payload', hname', henvelope', ?_⟩
      by_cases hhash : P.blake3 payload' = P.blake3 payload
      · -- no two payloads of the run have one hash
        obtain ⟨-, hpayload', -⟩ := hrep.entry _ _ hlookup
        obtain rfl := hL hpayload' hpayload hhash
        exact lookup_insert M
      · rw [lookup_insert_ne hhash]
        exact hlookup
  entry := by
    intro hash payload' hlookup
    by_cases hhash : hash = P.blake3 payload
    · subst hhash
      rw [lookup_insert] at hlookup
      cases hlookup
      exact ⟨rfl, hpayload, _, mem_cons_self, (mem_insert _).mpr (.inl rfl)⟩
    · rw [lookup_insert_ne hhash] at hlookup
      obtain ⟨heq, hmem, key, hkey, hname⟩ := hrep.entry hash payload' hlookup
      exact ⟨heq, hmem, key, mem_cons_of_mem _ hkey, (mem_insert _).mpr (.inr hname)⟩

omit hK in
theorem remove_represents {sidecar : FileName}
    (hkey : key ∈ s.used) (hfile : blobName P hash key ∈ s.dir)
    (honce : s.HeldOnce P hash) (hsidecar : ∀ hash' key', blobName P hash' key' ≠ sidecar) :
    Represents P K L { s with dir := (s.dir.erase (blobName P hash key)).erase sidecar }
      (erase hash M) where
  used_accepted := hrep.used_accepted
  accepted_known := hrep.accepted_known
  file := by
    intro name contents hlookup
    have hmem := lookup_isSome.mp (isSome_of_eq_some hlookup)
    obtain ⟨hne, hmem⟩ := mem_erase.mp hmem
    obtain ⟨hne', -⟩ := mem_erase.mp hmem
    rw [lookup_erase_ne hne, lookup_erase_ne hne'] at hlookup
    obtain ⟨key', hkey', payload, rfl, henvelope, hentry⟩ := hrep.file name contents hlookup
    refine ⟨key', hkey', payload, rfl, henvelope, ?_⟩
    rw [lookup_erase_ne]
    · exact hentry
    -- the only copy of the removed entry is the file that was unlinked
    · rintro rfl
      obtain rfl := honce key' hkey' key hkey (lookup_isSome.mp (isSome_of_eq_some hlookup)) hfile
      exact hne' rfl
  entry := by
    intro hash' payload hlookup
    have hne := (mem_erase.mp (lookup_isSome.mp (isSome_of_eq_some hlookup))).1
    rw [lookup_erase_ne hne] at hlookup
    obtain ⟨heq, hmem, key', hkey', hname⟩ := hrep.entry hash' payload hlookup
    refine ⟨heq, hmem, key', hkey', mem_erase.mpr ⟨hsidecar _ _, mem_erase.mpr ⟨?_, hname⟩⟩⟩
    exact fun h => hne (blobName_inj h).1

end Represented

/-! ## Runs -/

/-- The state after a list of calls. -/
def Session.after (P : Primitives) (s : Session) (actions : List Action) : Session :=
  run (fun s action => (s.step P action).2) s actions

def InMemoryArtifactStore.after (P : Primitives) (M : InMemoryArtifactStore) (actions : List Action) :
    InMemoryArtifactStore := run (fun M action => (InMemoryArtifactStore.step P M action).2) M actions

variable {M : InMemoryArtifactStore} {actions : List Action}

/-- A map keeps an entry that is not removed; putting its payload again changes nothing. -/
theorem InMemoryArtifactStore.lookup_run_some (h : M.lookup hash = some payload)
    (hremove : Action.remove hash ∉ actions)
    (hput : ∀ payload', Action.put payload' ∈ actions → P.blake3 payload' = hash → payload' = payload) :
    (M.after P actions).lookup hash = some payload := by
  induction actions generalizing M with
  | nil => exact h
  | cons action actions ih =>
    refine ih ?_ (fun hmem => hremove (mem_cons_of_mem _ hmem)) fun payload' hmem =>
      hput payload' (mem_cons_of_mem _ hmem)
    cases action with
    | rotate store | get hash' | contains hash' | list => exact h
    | put payload' =>
      change (AList.insert (P.blake3 payload') payload' M).lookup hash = some payload
      by_cases hhash : hash = P.blake3 payload'
      · obtain rfl := hput payload' mem_cons_self hhash.symm
        subst hhash
        exact lookup_insert M
      · rw [lookup_insert_ne hhash]
        exact h
    | remove hash' =>
      have hne : hash ≠ hash' := fun heq => hremove (heq ▸ mem_cons_self)
      exact (lookup_erase_ne hne).trans h

/-- A map has no entry for a hash until a payload with that hash is put. -/
theorem InMemoryArtifactStore.lookup_run_none (h : M.lookup hash = none)
    (hput : ∀ payload, Action.put payload ∈ actions → P.blake3 payload ≠ hash) :
    (M.after P actions).lookup hash = none := by
  induction actions generalizing M with
  | nil => exact h
  | cons action actions ih =>
    refine ih ?_ fun payload hmem => hput payload (mem_cons_of_mem _ hmem)
    cases action with
    | rotate store | get hash' | contains hash' | list => exact h
    | put payload =>
      have hne : hash ≠ P.blake3 payload := (hput payload mem_cons_self).symm
      exact (lookup_insert_ne hne).trans h
    | remove hash' =>
      change (erase hash' M).lookup hash = none
      by_cases heq : hash = hash'
      · rw [heq]
        exact lookup_erase hash' M
      · exact (lookup_erase_ne heq).trans h

section Runs

variable {K : Set Block} {L : Set Bytes} (hZ : P.zstd.Lossless) (hreliable : P.zstd.Reliable)
  (hK : Set.InjOn (keyFingerprintHex P) K) (hL : Set.InjOn P.blake3 L)

include hZ hreliable hK hL in
/-- One call: the answers agree and the directory still represents the map. -/
theorem step_agrees {s : Session} {action : Action}
    (hrep : Represents P K L s M) (hallowed : s.Allowed P K L action) :
    Answer.Same (s.step P action).1 (M.step P action).1 ∧
      Represents P K L (s.step P action).2 (M.step P action).2 := by
  cases action with
  | rotate store =>
    refine ⟨rfl, ?_⟩
    exact ⟨hallowed.1, hallowed.2, hrep.file, hrep.entry⟩
  | put payload =>
    obtain ⟨hpayload, hsize⟩ := hallowed
    have hflat : [payload].flatten = payload := append_nil payload
    obtain ⟨body, hencode⟩ := hreliable s.store.zstdLevel [payload] (hflat.symm ▸ hsize)
    have hwithin : [payload].flatten.length ≤ maxDecompressedLen :=
      hflat.symm ▸ hsize.trans (Nat.le_add_right _ _)
    have henvelope := isEnvelope_seal hZ s.store.keyProvider.activeKey hencode hwithin
    rw [hflat] at henvelope
    simp only [Session.step, InMemoryArtifactStore.step, InMemoryArtifactStore.put,
      DiskArtifactStore.put_eq hsize hencode]
    exact ⟨rfl, put_represents hrep hL hpayload henvelope⟩
  | get hash => exact ⟨congrArg Answer.get (get_agrees hrep hK hash), hrep⟩
  | contains hash => exact ⟨congrArg Answer.contains (contains_agrees hrep hK hash), hrep⟩
  | list => exact ⟨list_agrees hrep hK, hrep⟩
  | remove hash =>
    rcases resolve_cases hrep hK hash with
      ⟨hnone, hresolve⟩ | ⟨key, bytes, payload, hresolve, hkey, hfile, -, -, hlookup⟩
    · have hmem : hash ∉ M := lookup_eq_none.mp hnone
      have hsame : erase hash M = M := AList.ext (kerase_of_notMem_keys hmem)
      simp only [Session.step, InMemoryArtifactStore.step, InMemoryArtifactStore.remove,
        DiskArtifactStore.remove, hresolve, decide_eq_false hmem, hsame]
      exact ⟨rfl, hrep⟩
    · have hmem : hash ∈ M := lookup_isSome.mp (isSome_of_eq_some hlookup)
      obtain ⟨sidecar, hsidecar, hremove⟩ := DiskArtifactStore.remove_eq hresolve
      simp only [Session.step, InMemoryArtifactStore.step, InMemoryArtifactStore.remove, hremove,
        decide_eq_true hmem]
      refine ⟨rfl, remove_represents hrep hkey ?_ hallowed hsidecar⟩
      exact lookup_isSome.mp (isSome_of_eq_some hfile)

theorem initial_represents {store : DiskArtifactStore} (hstore : ∀ key ∈ store.keyProvider.readKeys, key ∈ K) :
    Represents P K L (.initial store) ∅ where
  used_accepted := fun _ hkey => nomatch hkey
  accepted_known := hstore
  file := fun _ _ h => nomatch h
  entry := fun _ _ h => nomatch h

include hZ hreliable hK hL in
theorem run_agrees {store : DiskArtifactStore} (hstore : ∀ key ∈ store.keyProvider.readKeys, key ∈ K)
    (hallowed : Along (fun s action => (Session.step P s action).2) (Session.Allowed P K L)
      (.initial store) actions) :
    List.Forall₂ Answer.Same (answers (Session.step P) (.initial store) actions)
        (answers (InMemoryArtifactStore.step P) ∅ actions) ∧
      Represents P K L ((Session.initial store).after P actions) (InMemoryArtifactStore.after P ∅ actions) := by
  have hstep : ∀ s M action, Represents P K L s M → Session.Allowed P K L s action →
      Answer.Same (s.step P action).1 (InMemoryArtifactStore.step P M action).1 ∧
        Represents P K L (s.step P action).2 (InMemoryArtifactStore.step P M action).2 := by
    intro s M action hrep hallowed
    exact step_agrees hZ hreliable hK hL hrep hallowed
  exact answers_related hstep (initial_represents hstore) hallowed

end Runs

/-- In every run of allowed calls the disk store answers as the in-memory store does. What was put and
not removed is served, and what was removed and not put again is gone. -/
theorem disk_store_answers_as_map (P : Primitives) (hZ : P.zstd.Lossless) (hreliable : P.zstd.Reliable)
    (K : Set Block) (L : Set Bytes) (hK : Set.InjOn (keyFingerprintHex P) K) (hL : Set.InjOn P.blake3 L)
    (store : DiskArtifactStore) (hstore : ∀ key ∈ store.keyProvider.readKeys, key ∈ K) :
    (∀ actions : List Action,
      Along (fun s action => (Session.step P s action).2) (Session.Allowed P K L) (.initial store) actions →
        List.Forall₂ Answer.Same (answers (Session.step P) (.initial store) actions)
          (answers (InMemoryArtifactStore.step P) ∅ actions)) ∧
    (∀ (before after : List Action) (payload : Bytes),
      Along (fun s action => (Session.step P s action).2) (Session.Allowed P K L) (.initial store)
        (before ++ .put payload :: after) → .remove (P.blake3 payload) ∉ after →
      let s := (Session.initial store).after P (before ++ .put payload :: after)
      (s.store.get P s.dir (P.blake3 payload)).result = .ok payload) ∧
    (∀ (before after : List Action) (hash : ContentHash),
      Along (fun s action => (Session.step P s action).2) (Session.Allowed P K L) (.initial store)
        (before ++ .remove hash :: after) → (∀ payload, .put payload ∈ after → P.blake3 payload ≠ hash) →
      let s := (Session.initial store).after P (before ++ .remove hash :: after)
      (s.store.get P s.dir hash).result = .error (.notFound hash) ∧
        s.store.contains P s.dir hash = .ok false ∧ hash ∉ s.store.list P s.dir) := by
  refine ⟨fun actions hallowed => (run_agrees hZ hreliable hK hL hstore hallowed).1, ?_, ?_⟩
  · intro before after payload hallowed hremove
    have hrep := (run_agrees hZ hreliable hK hL hstore hallowed).2
    have hlookup : (InMemoryArtifactStore.after P ∅ (before ++ .put payload :: after)).lookup
        (P.blake3 payload) = some payload := by
      rw [InMemoryArtifactStore.after, run_append, run_cons]
      refine InMemoryArtifactStore.lookup_run_some (lookup_insert _) hremove ?_
      -- payloads that are put with one hash are equal
      intro payload' hput hhash
      obtain ⟨_, hpayload', -⟩ := hallowed.exists_of_mem (a := .put payload')
        (mem_append_right _ (mem_cons_of_mem _ hput))
      obtain ⟨_, hpayload, -⟩ := hallowed.exists_of_mem (a := .put payload)
        (mem_append_right _ mem_cons_self)
      exact hL hpayload' hpayload hhash
    intro s
    rw [get_agrees hrep hK, InMemoryArtifactStore.get, hlookup]
  · intro before after hash hallowed hput
    have hrep := (run_agrees hZ hreliable hK hL hstore hallowed).2
    have hlookup : (InMemoryArtifactStore.after P ∅ (before ++ .remove hash :: after)).lookup hash =
        none := by
      rw [InMemoryArtifactStore.after, run_append, run_cons]
      exact InMemoryArtifactStore.lookup_run_none (lookup_erase hash _) hput
    have hmem := lookup_eq_none.mp hlookup
    intro s
    refine ⟨?_, ?_, ?_⟩
    · rw [get_agrees hrep hK, InMemoryArtifactStore.get, hlookup]
    · rw [contains_agrees hrep hK, InMemoryArtifactStore.contains, decide_eq_false hmem]
    · exact fun hlisted => hmem ((list_agrees hrep hK).subset hlisted)

theorem storedZstd_reliable : storedZstd.Reliable := by
  intro level pieces hsize
  have hbound : pieces.flatten.length < 256 ^ 8 := hsize.trans_lt (by decide)
  exact ⟨_, if_pos hbound⟩

def oldKey : Block := List.Vector.replicate 32 1
def newKey : Block := List.Vector.replicate 32 2
def oldStore : DiskArtifactStore := ⟨SingleKeyProvider oldKey, defaultZstdLevel⟩
def newStore : DiskArtifactStore := ⟨RotatingKeyProvider newKey [oldKey], defaultZstdLevel⟩

/-- Stored content, with a hash that repeats the first byte. -/
def firstBytePrimitives : Primitives where
  zstd := storedZstd
  hmacSha256 _ _ := zeroBlock
  blake3 bytes := List.Vector.replicate 32 (bytes.headD 0)

def sevenHash : ContentHash := firstBytePrimitives.blake3 [7]
def eightHash : ContentHash := firstBytePrimitives.blake3 [8]

theorem oldKey_ne_newKey :
    keyFingerprintHex firstBytePrimitives oldKey ≠ keyFingerprintHex firstBytePrimitives newKey := by
  decide

/-- One payload is put under the old key and one under the new; the first is then removed. -/
def rotatedCalls : List Action :=
  [.put [7], .rotate newStore, .put [8], .get sevenHash, .remove sevenHash, .get sevenHash, .get eightHash, .list]

theorem disk_store_answers_as_map_rotated :
    List.Forall₂ Answer.Same
      (answers (Session.step firstBytePrimitives) (.initial oldStore) rotatedCalls)
      (answers (InMemoryArtifactStore.step firstBytePrimitives) ∅ rotatedCalls) := by
  have hhashes : sevenHash ≠ eightHash := by decide
  refine (disk_store_answers_as_map firstBytePrimitives storedZstd_lossless storedZstd_reliable
    {oldKey, newKey} {[7], [8]} ?_ ?_ oldStore ?_).1 _ ?_
  · exact Set.injOn_pair.mpr fun heq => absurd heq oldKey_ne_newKey
  · exact Set.injOn_pair.mpr fun heq => absurd heq hhashes
  · exact fun key hkey => .inl (mem_singleton.mp hkey)
  refine ⟨⟨.inl rfl, by decide⟩, ⟨?_, ?_⟩, ⟨.inr rfl, by decide⟩, trivial, ?_, trivial, trivial, trivial, trivial⟩
  · exact fun key hkey => mem_cons_of_mem _ hkey
  · simp [newStore, RotatingKeyProvider]
  -- the payload that is removed has a copy under the old key only
  have hheld : ∀ key ∈ [newKey, oldKey], blobName firstBytePrimitives sevenHash key ∈
      (newStore.put firstBytePrimitives (oldStore.put firstBytePrimitives ∅ [7]).2 [8]).2 → key = oldKey := by
    intro key hkey hmem
    rw [DiskArtifactStore.put_eq (by decide) rfl, DiskArtifactStore.put_eq (by decide) rfl, mem_insert,
      mem_insert] at hmem
    obtain heq | heq | hempty := hmem
    · exact absurd (blobName_inj heq).1 hhashes
    · obtain rfl | rfl := by simpa using hkey
      · exact absurd (blobName_inj heq).2.symm oldKey_ne_newKey
      · rfl
    · exact absurd hempty (Finmap.notMem_empty (β := fun _ => Bytes))
  intro key hkey key' hkey' hmem hmem'
  exact (hheld key hkey hmem).trans (hheld key' hkey' hmem').symm

/-! ## Where the two differ -/

/-- `remove` unlinks the copy it resolves to. A copy under another accepted key is still served. -/
theorem remove_leaves_copy {old new : Block} (hkeys : D.keyProvider.readKeys = [new, old])
    (hdistinct : keyFingerprintHex P old ≠ keyFingerprintHex P new) (hnew : blobName P (P.blake3 payload) new ∈ dir)
    (hold : dir.lookup (blobName P (P.blake3 payload) old) = some bytes)
    (henvelope : IsEnvelope P maxDecompressedLen old bytes payload) :
    (D.get P (D.remove P dir (P.blake3 payload)).2 (P.blake3 payload)).result = .ok payload := by
  have hresolve : D.resolveReadKey P dir (P.blake3 payload) =
      .ok (some (blobName P (P.blake3 payload) new, new)) := by
    rw [resolveReadKey, hkeys, DiskArtifactStore.resolveFrom_eq, find?_cons, decide_eq_true hnew]
    rfl
  obtain ⟨sidecar, hsidecar, hremove⟩ := DiskArtifactStore.remove_eq hresolve
  have hname : blobName P (P.blake3 payload) old ≠ blobName P (P.blake3 payload) new :=
    fun heq => hdistinct (blobName_inj heq).2
  have hgone : blobName P (P.blake3 payload) new ∉
      (dir.erase (blobName P (P.blake3 payload) new)).erase sidecar := by
    intro hmem
    exact (mem_erase.mp (mem_erase.mp hmem).2).1 rfl
  have hkept : ((dir.erase (blobName P (P.blake3 payload) new)).erase sidecar).lookup
      (blobName P (P.blake3 payload) old) = some bytes := by
    rw [lookup_erase_ne (hsidecar _ _), lookup_erase_ne hname]
    exact hold
  have hagain : D.resolveReadKey P ((dir.erase (blobName P (P.blake3 payload) new)).erase sidecar)
      (P.blake3 payload) = .ok (some (blobName P (P.blake3 payload) old, old)) := by
    have hmem := lookup_isSome.mp (isSome_of_eq_some hkept)
    rw [resolveReadKey, hkeys, DiskArtifactStore.resolveFrom_eq, find?_cons,
      decide_eq_false hgone, find?_cons, decide_eq_true hmem]
    rfl
  rw [hremove, DiskArtifactStore.get, Traced.bind_result, Traced.quiet_result,
    DiskArtifactStore.openBlob, hagain, ok_bind]
  simp only [hkept]
  exact DiskArtifactStore.getBlob_ok_iff.mpr ⟨henvelope, rfl⟩

/-- Put, rotate, put again, remove. -/
def putTwiceRemove : List Action := [.put [7], .rotate newStore, .put [7], .remove sevenHash]

/-- A payload put under both keys is served after it was removed, and one over the cap is refused; the
in-memory store does neither. -/
theorem disk_store_differs :
    ((newStore.get firstBytePrimitives
        ((Session.initial oldStore).after firstBytePrimitives putTwiceRemove).dir sevenHash).result = .ok [7] ∧
      (InMemoryArtifactStore.after firstBytePrimitives ∅ putTwiceRemove).get sevenHash =
        .error (.notFound sevenHash)) ∧
    ((oldStore.put firstBytePrimitives ∅ (List.replicate (maxPayloadLen + 1) 0)).1 =
        .error (.tooLarge (maxPayloadLen + 1) maxPayloadLen) ∧
      (InMemoryArtifactStore.put firstBytePrimitives ∅ (List.replicate (maxPayloadLen + 1) 0)).1 =
        .ok (firstBytePrimitives.blake3 (List.replicate (maxPayloadLen + 1) 0))) := by
  refine ⟨⟨?_, ?_⟩, ?_, rfl⟩
  · have hencode : firstBytePrimitives.zstd.encode defaultZstdLevel [[7]] = .ok (leBytes 8 1 ++ [7]) := rfl
    have hput : ∀ (D : DiskArtifactStore) (dir : Directory), D.put firstBytePrimitives dir [7] =
        (.ok sevenHash,
          dir.insert (blobName firstBytePrimitives sevenHash D.keyProvider.activeKey)
            (sealEnvelope firstBytePrimitives D.keyProvider.activeKey sevenHash (leBytes 8 1 ++ [7]))) :=
      fun D dir => DiskArtifactStore.put_eq (by decide) rfl dir
    change (newStore.get firstBytePrimitives (newStore.remove firstBytePrimitives
      (newStore.put firstBytePrimitives (oldStore.put firstBytePrimitives ∅ [7]).2 [7]).2 sevenHash).2
        sevenHash).result = .ok [7]
    rw [hput, hput]
    refine remove_leaves_copy rfl oldKey_ne_newKey ((mem_insert _).mpr (.inl rfl)) ?_
      (isEnvelope_seal storedZstd_lossless oldKey hencode (by decide))
    -- the second put leaves the first file alone
    have hname : ∀ hash, blobName firstBytePrimitives hash oldKey ≠ blobName firstBytePrimitives hash newKey :=
      fun hash heq => oldKey_ne_newKey (blobName_inj heq).2
    exact (lookup_insert_ne (hname _)).trans (lookup_insert _)
  · have hlookup : (InMemoryArtifactStore.after firstBytePrimitives ∅ putTwiceRemove).lookup sevenHash = none :=
      lookup_erase sevenHash _
    rw [InMemoryArtifactStore.get, hlookup]
  · rw [DiskArtifactStore.put, length_replicate, if_pos (Nat.lt_succ_self _)]

end TensorWasm.Artifacts
