import TensorWasm.Jit.Registry
import TensorWasm.Lib.Run

/-!
# The kernel registry across restarts

A registry is described by the list of blobs it has accepted. `Holds` says that the store, which is
all that survives a restart, has exactly these blobs; `Catalogued` says that the keymap and the index
describe a set of blobs. A publish extends the list, a restart rebuilds the catalogue from the store
whatever order the store lists its hashes in, and `get` is a function of the list alone. Publishes
are one after the other: two concurrent ones of the same triple are not covered.
-/

namespace TensorWasm.Jit

open Lib List
open KernelManifest (key)

section

variable {Hash : Type}

/-- The hash a blob is stored under. -/
def RegistryEnv.StoredAt (env : RegistryEnv Hash) (blob : ManifestBlob) (hash : Hash) : Prop :=
  ∃ bytes, env.encodeManifestBlob blob = .ok bytes ∧ hash = env.contentHash bytes

variable {env : RegistryEnv Hash} {blob : ManifestBlob}

theorem RegistryEnv.StoredAt.unique {hash hash' : Hash} (h : env.StoredAt blob hash)
    (h' : env.StoredAt blob hash') : hash = hash' := by
  obtain ⟨bytes, hbytes, rfl⟩ := h
  obtain ⟨bytes', hbytes', rfl⟩ := h'
  rw [hbytes] at hbytes'
  rw [Except.ok.inj hbytes']

/-- The encodings of the blobs have hashes of their own. A hash of 32 bytes cannot tell all byte strings apart,
so this is asked of the blobs that a registry stores, and of no others. -/
def RegistryEnv.NoCollision (env : RegistryEnv Hash) (log : List ManifestBlob) : Prop :=
  Set.InjOn env.contentHash {bytes | ∃ blob ∈ log, env.encodeManifestBlob blob = .ok bytes}

theorem RegistryEnv.NoCollision.mono {log log' : List ManifestBlob} (h : env.NoCollision log') (hsub : log ⊆ log') :
    env.NoCollision log := by
  refine Set.InjOn.mono ?_ h
  rintro bytes ⟨blob, hblob, hbytes⟩
  exact ⟨blob, hsub hblob, hbytes⟩

/-- The sm versions the index lists. -/
def DiskRegistry.smVersions (s : DiskRegistry Hash) (name version : String) : List UInt32 :=
  (s.smIndex.lookup (name, version)).getD []

variable (s : DiskRegistry Hash)

theorem bestSm_eq (name version : String) :
    (s.smIndex.lookup (name, version)).bind List.getLast? = (s.smVersions name version).getLast? := by
  unfold DiskRegistry.smVersions
  cases s.smIndex.lookup (name, version) <;> rfl

/-- The keymap and the index describe a set of blobs. -/
structure Catalogued (env : RegistryEnv Hash) (s : DiskRegistry Hash) (blobs : Set ManifestBlob) : Prop where
  keymap : ∀ key entry, s.keymap.lookup key = some entry ↔
    ∃ blob ∈ blobs, blob.1.key = key ∧ entry.manifest = blob.1 ∧ env.StoredAt blob entry.hash
  sorted : ∀ name version, (s.smVersions name version).Pairwise (· < ·)
  index : ∀ name version sm, sm ∈ s.smVersions name version ↔ ∃ blob ∈ blobs, blob.1.key = (name, version, sm)

theorem catalogued_empty (env : RegistryEnv Hash) (store : AList fun _ : Hash => Bytes)
    (allowlist : Option (List String)) : Catalogued env ⟨store, ∅, ∅, allowlist⟩ ∅ := by
  refine ⟨?_, ?_, ?_⟩
  · intro key entry
    simp
  · intro name version
    simp [DiskRegistry.smVersions]
  · intro name version sm
    simp [DiskRegistry.smVersions]

/-! ## Admitting a blob -/

theorem smVersions_catalogue_self (m : KernelManifest) (hash : Hash) :
    (s.catalogue m hash).smVersions m.name m.version = insertSorted (s.smVersions m.name m.version) m.smVersion := by
  simp [DiskRegistry.smVersions, DiskRegistry.catalogue, indexSmVersion]

theorem smVersions_catalogue_ne {m : KernelManifest} (hash : Hash)
    {name version : String} (hne : (name, version) ≠ (m.name, m.version)) :
    (s.catalogue m hash).smVersions name version = s.smVersions name version := by
  simp only [DiskRegistry.smVersions, DiskRegistry.catalogue, indexSmVersion]
  rw [AList.lookup_insert_ne hne]

variable {s : DiskRegistry Hash} {blobs : Set ManifestBlob} {hash : Hash}

theorem Catalogued.catalogue_keymap (hs : Catalogued env s blobs) (hstored : env.StoredAt blob hash)
    (hkey : ∀ b ∈ blobs, b.1.key = blob.1.key → b = blob) (key : String × String × UInt32)
    (entry : KeymapEntry Hash) :
    (s.catalogue blob.1 hash).keymap.lookup key = some entry ↔
      ∃ b ∈ insert blob blobs, b.1.key = key ∧ entry.manifest = b.1 ∧ env.StoredAt b entry.hash := by
  by_cases h : key = blob.1.key
  · subst h
    constructor
    · intro hlookup
      obtain rfl : (⟨hash, blob.1⟩ : KeymapEntry Hash) = entry :=
        Option.some.inj ((AList.lookup_insert s.keymap).symm.trans hlookup)
      exact ⟨blob, Set.mem_insert _ _, rfl, rfl, hstored⟩
    · rintro ⟨b, hb, hbkey, hmanifest, hhash⟩
      obtain rfl : b = blob := by
        rcases hb with hb | hb
        · exact hb
        · exact hkey b hb hbkey
      obtain ⟨entryHash, entryManifest⟩ := entry
      obtain rfl : entryManifest = b.1 := hmanifest
      obtain rfl := hstored.unique hhash
      exact AList.lookup_insert _
  · have hother : (s.catalogue blob.1 hash).keymap.lookup key = s.keymap.lookup key :=
      AList.lookup_insert_ne h
    rw [hother, hs.keymap]
    constructor
    · rintro ⟨b, hb, hrest⟩
      exact ⟨b, Set.mem_insert_of_mem _ hb, hrest⟩
    · rintro ⟨b, hb, hbkey, hrest⟩
      rcases hb with rfl | hb
      · exact absurd hbkey.symm h
      · exact ⟨b, hb, hbkey, hrest⟩

theorem Catalogued.catalogue_index (hs : Catalogued env s blobs) (blob : ManifestBlob) (hash : Hash)
    (name version : String) (sm : UInt32) :
    sm ∈ (s.catalogue blob.1 hash).smVersions name version ↔
      ∃ b ∈ insert blob blobs, b.1.key = (name, version, sm) := by
  have hinsert : (∃ b ∈ insert blob blobs, b.1.key = (name, version, sm)) ↔
      blob.1.key = (name, version, sm) ∨ sm ∈ s.smVersions name version := by
    rw [hs.index, Set.exists_mem_insert]
  rw [hinsert]
  by_cases h : (name, version) = (blob.1.name, blob.1.version)
  · cases h
    rw [smVersions_catalogue_self, mem_insertSorted (hs.sorted _ _)]
    simp [key, eq_comm]
  · rw [smVersions_catalogue_ne s hash h]
    refine (or_iff_right ?_).symm
    intro hkey
    obtain ⟨rfl, hrest⟩ := Prod.mk.inj hkey
    obtain ⟨rfl, -⟩ := Prod.mk.inj hrest
    exact h rfl

/-- Admitting a blob adds it to the catalogue, if no other blob has its triple. -/
theorem Catalogued.catalogue (hs : Catalogued env s blobs) (hstored : env.StoredAt blob hash)
    (hkey : ∀ b ∈ blobs, b.1.key = blob.1.key → b = blob) :
    Catalogued env (s.catalogue blob.1 hash) (insert blob blobs) := by
  refine ⟨hs.catalogue_keymap hstored hkey, ?_, hs.catalogue_index blob hash⟩
  intro name version
  by_cases h : (name, version) = (blob.1.name, blob.1.version)
  · cases h
    rw [smVersions_catalogue_self]
    exact pairwise_insertSorted (hs.sorted _ _) _
  · rw [smVersions_catalogue_ne s hash h]
    exact hs.sorted name version

/-! ## The store and the recovery pass -/

variable [DecidableEq Hash]

/-- The store has exactly the blobs of the log: verified ones, one for each triple. -/
structure Holds (env : RegistryEnv Hash) (store : AList fun _ : Hash => Bytes)
    (log : List ManifestBlob) : Prop where
  distinct : (log.map fun blob => blob.1.key).Nodup
  verified : ∀ blob ∈ log, verifyManifestSignature env.hmac blob.1 = .ok () ∧
    env.blake3 (utf8Bytes blob.2) = blob.1.digest
  encoded : ∀ blob ∈ log, ∃ hash, env.StoredAt blob hash
  stored : ∀ hash raw, store.lookup hash = some raw ↔
    ∃ blob ∈ log, env.encodeManifestBlob blob = .ok raw ∧ hash = env.contentHash raw

variable {log : List ManifestBlob} {store : AList fun _ : Hash => Bytes}

theorem Holds.eq_of_key (h : Holds env store log) {b b' : ManifestBlob} (hb : b ∈ log)
    (hb' : b' ∈ log) (hkey : b.1.key = b'.1.key) : b = b' :=
  inj_on_of_nodup_map h.distinct hb hb' hkey

theorem Holds.lookup_storedAt (h : Holds env store log) (hblob : blob ∈ log) (hstored : env.StoredAt blob hash) :
    ∃ raw, store.lookup hash = some raw ∧ env.decodeManifestBlob raw = .ok blob := by
  obtain ⟨bytes, hbytes, rfl⟩ := hstored
  exact ⟨bytes, (h.stored _ _).mpr ⟨blob, hblob, hbytes, rfl⟩, env.decode_encode _ _ hbytes⟩

@[simp] theorem recoverBlob_store (env : RegistryEnv Hash) (s : DiskRegistry Hash) (hash : Hash) :
    (s.recoverBlob env hash).artifactStore = s.artifactStore := by
  unfold DiskRegistry.recoverBlob
  repeat' split
  all_goals rfl

variable (h : Holds env s.artifactStore log)

include h

theorem recoverBlob_of_storedAt (hblob : blob ∈ log)
    (hstored : env.StoredAt blob hash) : s.recoverBlob env hash = s.catalogue blob.1 hash := by
  obtain ⟨raw, hraw, hdecode⟩ := h.lookup_storedAt hblob hstored
  simp [DiskRegistry.recoverBlob, hraw, hdecode, (h.verified blob hblob).1]

theorem recoverBlob_of_absent (habsent : ∀ blob ∈ log, ¬ env.StoredAt blob hash) : s.recoverBlob env hash = s := by
  have hnone : s.artifactStore.lookup hash = none := by
    cases hlookup : s.artifactStore.lookup hash with
    | none => rfl
    | some raw =>
      obtain ⟨blob, hblob, hbytes, rfl⟩ := (h.stored _ _).mp hlookup
      exact absurd ⟨raw, hbytes, rfl⟩ (habsent blob hblob)
  simp [DiskRegistry.recoverBlob, hnone]

/-- One hash of the recovery pass: the blob stored there, if any, joins the catalogue. -/
theorem Catalogued.recoverBlob (hsub : ∀ blob ∈ blobs, blob ∈ log) (hs : Catalogued env s blobs) (hash : Hash) :
    Catalogued env (s.recoverBlob env hash) (blobs ∪ {blob | blob ∈ log ∧ env.StoredAt blob hash}) := by
  by_cases hstored : ∃ blob ∈ log, env.StoredAt blob hash
  · obtain ⟨blob, hblob, hat⟩ := hstored
    have honly : {b | b ∈ log ∧ env.StoredAt b hash} = {blob} := by
      ext b
      constructor
      · rintro ⟨hb, hbat⟩
        obtain ⟨raw, hraw, hdecode⟩ := h.lookup_storedAt hblob hat
        obtain ⟨raw', hraw', hdecode'⟩ := h.lookup_storedAt hb hbat
        obtain rfl := Option.mem_unique hraw hraw'
        exact Except.ok.inj (hdecode'.symm.trans hdecode)
      · rintro rfl
        exact ⟨hblob, hat⟩
    rw [recoverBlob_of_storedAt h hblob hat, honly, Set.union_singleton]
    exact hs.catalogue hat fun b hb hkey => h.eq_of_key (hsub b hb) hblob hkey
  · have hempty : {b | b ∈ log ∧ env.StoredAt b hash} = ∅ := by
      ext b
      constructor
      · intro hb
        exact absurd ⟨b, hb⟩ hstored
      · exact False.elim
    rw [recoverBlob_of_absent h fun b hb hat => hstored ⟨b, hb, hat⟩, hempty, Set.union_empty]
    exact hs

omit h

/-- The whole pass, whatever the order of the hashes and however often one is listed. -/
theorem Catalogued.recover (hashes : List Hash) (h : Holds env s.artifactStore log)
    (hsub : ∀ blob ∈ blobs, blob ∈ log) (hs : Catalogued env s blobs) :
    Catalogued env (hashes.foldl (DiskRegistry.recoverBlob env) s)
        (blobs ∪ {blob | blob ∈ log ∧ ∃ hash ∈ hashes, env.StoredAt blob hash}) ∧
      (hashes.foldl (DiskRegistry.recoverBlob env) s).artifactStore = s.artifactStore := by
  induction hashes generalizing s blobs with
  | nil =>
    refine ⟨?_, rfl⟩
    simpa using hs
  | cons hash hashes ih =>
    have hsub' : ∀ blob ∈ blobs ∪ {b | b ∈ log ∧ env.StoredAt b hash}, blob ∈ log := by
      rintro blob (hblob | hblob)
      · exact hsub blob hblob
      · exact hblob.1
    obtain ⟨hcat, hstore⟩ := ih (s := s.recoverBlob env hash) (by rwa [recoverBlob_store]) hsub'
      (hs.recoverBlob h hsub hash)
    refine ⟨?_, hstore.trans (recoverBlob_store env s hash)⟩
    have hsplit : {b | b ∈ log ∧ ∃ x ∈ hash :: hashes, env.StoredAt b x} =
        {b | b ∈ log ∧ env.StoredAt b hash} ∪ {b | b ∈ log ∧ ∃ x ∈ hashes, env.StoredAt b x} := by
      ext b
      simp [and_or_left]
    rw [hsplit, ← Set.union_assoc]
    exact hcat

/-- A registry with the log as its content. -/
structure Represents (env : RegistryEnv Hash) (s : DiskRegistry Hash) (log : List ManifestBlob) : Prop where
  holds : Holds env s.artifactStore log
  catalogued : Catalogued env s {blob | blob ∈ log}

/-- **Recovery**: whatever order the store lists its blobs in, the rebuilt registry has all of
them. -/
theorem represents_openRegistry (h : Holds env store log) (listing : Listing Hash)
    (allowlist : Option (List String)) : Represents env (openRegistry env listing store allowlist) log := by
  obtain ⟨hcat, hstore⟩ := Catalogued.recover (listing.order store.keys)
    (s := ⟨store, ∅, ∅, allowlist⟩) h (fun _ => False.elim) (catalogued_empty env store allowlist)
  have hall : (∅ ∪ {b | b ∈ log ∧ ∃ hash ∈ listing.order store.keys, env.StoredAt b hash}) = {b | b ∈ log} := by
    ext b
    rw [Set.empty_union]
    constructor
    · exact And.left
    · intro hb
      -- the store has every blob of the log, so it lists the hash of each
      obtain ⟨hash, hat⟩ := h.encoded b hb
      obtain ⟨raw, hraw, -⟩ := h.lookup_storedAt hb hat
      have hlisted : hash ∈ store.keys := AList.lookup_isSome.mp (by rw [hraw]; rfl)
      exact ⟨hb, hash, (listing.mem_order _ _).mpr hlisted, hat⟩
  refine ⟨?_, hall ▸ hcat⟩
  unfold openRegistry
  rw [hstore]
  exact h

/-! ## Publishing -/

/-- A publish either changes nothing, or stores and takes in a blob that passed every check. -/
theorem publish_cases (env : RegistryEnv Hash) (s : DiskRegistry Hash) (m : KernelManifest)
    (ptxText : String) (putError : Option String) :
    (∃ e, s.publish env m ptxText putError = (s, .error e)) ∨
    ∃ bytes, env.blake3 (utf8Bytes ptxText) = m.digest ∧
      verifyManifestSignature env.hmac m = .ok () ∧ m.key ∉ s.keymap ∧
      env.encodeManifestBlob (m, ptxText) = .ok bytes ∧
      s.publish env m ptxText putError =
        ({ s with artifactStore := s.artifactStore.insert (env.contentHash bytes) bytes }.catalogue m
          (env.contentHash bytes), .ok ()) := by
  unfold DiskRegistry.publish
  by_cases hallow : !s.allows m.publisher
  · exact .inl ⟨_, if_pos hallow⟩
  rw [if_neg hallow]
  by_cases hdigest : env.blake3 (utf8Bytes ptxText) ≠ m.digest
  · exact .inl ⟨_, if_pos hdigest⟩
  rw [if_neg hdigest]
  cases hsig : verifyManifestSignature env.hmac m with
  | error e => exact .inl ⟨e, rfl⟩
  | ok _ =>
    by_cases hkey : m.key ∈ s.keymap
    · exact .inl ⟨_, if_pos hkey⟩
    dsimp only
    rw [if_neg hkey]
    cases hencode : env.encodeManifestBlob (m, ptxText) with
    | error e => exact .inl ⟨e, rfl⟩
    | ok bytes =>
      cases putError with
      | some reason => exact .inl ⟨_, rfl⟩
      | none => exact .inr ⟨bytes, not_not.mp hdigest, rfl, hkey, rfl, rfl⟩

/-- A blob with a new triple joins the store. -/
theorem Holds.put (h : Holds env store log) {bytes : Bytes}
    (hdigest : env.blake3 (utf8Bytes blob.2) = blob.1.digest)
    (hsig : verifyManifestSignature env.hmac blob.1 = .ok ())
    (hnew : ∀ b ∈ log, b.1.key ≠ blob.1.key) (hbytes : env.encodeManifestBlob blob = .ok bytes)
    (hcollision : env.NoCollision (blob :: log)) :
    Holds env (store.insert (env.contentHash bytes) bytes) (blob :: log) := by
  refine ⟨?_, ?_, ?_, ?_⟩
  · rw [map_cons, nodup_cons]
    refine ⟨?_, h.distinct⟩
    intro hmem
    obtain ⟨b, hb, hkey⟩ := mem_map.mp hmem
    exact hnew b hb hkey
  · exact forall_mem_cons.mpr ⟨⟨hsig, hdigest⟩, h.verified⟩
  · exact forall_mem_cons.mpr ⟨⟨_, bytes, hbytes, rfl⟩, h.encoded⟩
  · intro hash raw
    rw [exists_mem_cons_iff]
    by_cases hsame : hash = env.contentHash bytes
    · subst hsame
      rw [AList.lookup_insert]
      constructor
      · rintro ⟨⟩
        exact .inl ⟨hbytes, rfl⟩
      · -- whatever is stored at this hash has these bytes
        have hhere : bytes ∈ {bytes | ∃ b ∈ blob :: log, env.encodeManifestBlob b = .ok bytes} :=
          ⟨blob, mem_cons_self, hbytes⟩
        rintro (⟨hraw, hhash⟩ | ⟨b, hb, hraw, hhash⟩)
        · rw [hcollision hhere ⟨blob, mem_cons_self, hraw⟩ hhash]
        · rw [hcollision hhere ⟨b, mem_cons_of_mem _ hb, hraw⟩ hhash]
    · rw [AList.lookup_insert_ne hsame, h.stored]
      constructor
      · exact .inr
      · rintro (⟨hraw, rfl⟩ | hother)
        · obtain rfl := Except.ok.inj (hbytes.symm.trans hraw)
          exact absurd rfl hsame
        · exact hother

/-- What a publish call adds to the log. -/
def logPublish (log : List ManifestBlob) (blob : ManifestBlob) :
    Except RegistryError Unit → List ManifestBlob
  | .ok () => blob :: log
  | .error _ => log

theorem Represents.publish (h : Represents env s log) (m : KernelManifest) (ptxText : String)
    (putError : Option String)
    (hcollision : env.NoCollision (logPublish log (m, ptxText) (s.publish env m ptxText putError).2)) :
    Represents env (s.publish env m ptxText putError).1
      (logPublish log (m, ptxText) (s.publish env m ptxText putError).2) := by
  rcases publish_cases env s m ptxText putError with
    ⟨e, heq⟩ | ⟨bytes, hdigest, hsig, hfresh, hbytes, heq⟩
  · rw [heq]
    exact h
  · rw [heq] at hcollision ⊢
    -- a blob of the log with this triple would be in the keymap
    have hnew : ∀ b ∈ log, b.1.key ≠ m.key := by
      intro b hb hkey
      obtain ⟨hash, hat⟩ := h.holds.encoded b hb
      have hlookup := (h.catalogued.keymap m.key ⟨hash, b.1⟩).mpr ⟨b, hb, hkey, rfl, hat⟩
      exact hfresh (AList.lookup_isSome.mp (by rw [hlookup]; rfl))
    refine ⟨h.holds.put hdigest hsig hnew hbytes hcollision, ?_⟩
    have hset : {blob | blob ∈ (m, ptxText) :: log} = insert (m, ptxText) {blob | blob ∈ log} := by
      ext b
      exact mem_cons
    show Catalogued env _ {blob | blob ∈ (m, ptxText) :: log}
    rw [hset]
    have hbase : Catalogued env
        { s with artifactStore := s.artifactStore.insert (env.contentHash bytes) bytes }
        {blob | blob ∈ log} :=
      ⟨h.catalogued.keymap, h.catalogued.sorted, h.catalogued.index⟩
    have hat : env.StoredAt (m, ptxText) (env.contentHash bytes) := ⟨bytes, hbytes, rfl⟩
    exact hbase.catalogue hat fun b hb hkey => absurd hkey (hnew b hb)

/-! ## Resolving -/

/-- The blob has the highest sm version the log lists for a name and a version. -/
def Highest (log : List ManifestBlob) (name version : String) (blob : ManifestBlob) : Prop :=
  blob ∈ log ∧ blob.1.name = name ∧ blob.1.version = version ∧
    ∀ other ∈ log, other.1.name = name → other.1.version = version → other.1.smVersion ≤ blob.1.smVersion

theorem le_getLast_of_pairwise {xs : List UInt32} (hsorted : xs.Pairwise (· < ·)) {last : UInt32}
    (hlast : xs.getLast? = some last) : ∀ x ∈ xs, x ≤ last := by
  obtain ⟨init, rfl⟩ := List.getLast?_eq_some_iff.mp hlast
  intro x hx
  rcases mem_append.mp hx with hinit | hx
  · exact le_of_lt ((pairwise_append.mp hsorted).2.2 x hinit last (mem_singleton_self _))
  · exact le_of_eq (mem_singleton.mp hx)

theorem mem_smVersions (h : Represents env s log) (hblob : blob ∈ log) :
    blob.1.smVersion ∈ s.smVersions blob.1.name blob.1.version :=
  (h.catalogued.index _ _ _).mpr ⟨blob, hblob, rfl⟩

/-- What `get` answers is read off the log. -/
theorem Represents.get (h : Represents env s log) (name version : String) :
    (∃ blob, Highest log name version blob ∧ s.get env name version = .ok blob) ∨
    (∀ blob ∈ log, ¬ (blob.1.name = name ∧ blob.1.version = version)) ∧
      s.get env name version = .error (.notFound s!"{name}@{version}") := by
  unfold DiskRegistry.get
  rw [bestSm_eq]
  cases hlast : (s.smVersions name version).getLast? with
  | none =>
    refine .inr ⟨?_, rfl⟩
    rintro blob hblob ⟨rfl, rfl⟩
    have hmem := mem_smVersions h hblob
    rw [List.getLast?_eq_none_iff.mp hlast] at hmem
    exact not_mem_nil hmem
  | some sm =>
    obtain ⟨blob, hblob, hkey⟩ :=
      (h.catalogued.index _ _ _).mp (mem_of_getLast? hlast)
    obtain ⟨hash, hat⟩ := h.holds.encoded blob hblob
    obtain ⟨raw, hraw, hdecode⟩ := h.holds.lookup_storedAt hblob hat
    have hentry := (h.catalogued.keymap (name, version, sm) ⟨hash, blob.1⟩).mpr
      ⟨blob, hblob, hkey, rfl, hat⟩
    refine .inl ⟨blob, ⟨hblob, ?_⟩, ?_⟩
    · obtain ⟨rfl, hrest⟩ := Prod.mk.inj hkey
      cases hrest
      refine ⟨rfl, rfl, ?_⟩
      rintro other hother hname hversion
      have hmem := mem_smVersions h hother
      rw [hname, hversion] at hmem
      exact le_getLast_of_pairwise (h.catalogued.sorted _ _) hlast _ hmem
    · simp [hentry, hraw, hdecode]

theorem Highest.unique (h : Holds env store log) {name version : String} {b b' : ManifestBlob}
    (hb : Highest log name version b) (hb' : Highest log name version b') : b = b' := by
  obtain ⟨hmem, rfl, rfl, hmax⟩ := hb
  obtain ⟨hmem', hname, hversion, hmax'⟩ := hb'
  refine h.eq_of_key hmem hmem' ?_
  have hsm : b.1.smVersion = b'.1.smVersion :=
    le_antisymm (hmax' b hmem rfl rfl) (hmax b' hmem' hname hversion)
  simp [key, hname, hversion, hsm]

/-- Registries with one log answer alike. -/
theorem Represents.get_congr {s s' : DiskRegistry Hash} (h : Represents env s log) (h' : Represents env s' log)
    (name version : String) : s.get env name version = s'.get env name version := by
  rcases h.get name version with ⟨b, hb, hget⟩ | ⟨hnone, hget⟩ <;>
    rcases h'.get name version with ⟨b', hb', hget'⟩ | ⟨hnone', hget'⟩
  · rw [hget, hget', hb.unique h.holds hb']
  · exact absurd ⟨hb.2.1, hb.2.2.1⟩ (hnone' b hb.1)
  · exact absurd ⟨hb'.2.1, hb'.2.2.1⟩ (hnone b' hb'.1)
  · rw [hget, hget']

/-! ## Whole histories -/

/-- A call, with the blobs accepted so far, the last one first. -/
def logCall (env : RegistryEnv Hash) :
    DiskRegistry Hash × List ManifestBlob → RegistryCall Hash → DiskRegistry Hash × List ManifestBlob
  | (s, log), .publish m ptxText putError =>
    (s.call env (.publish m ptxText putError), logPublish log (m, ptxText) (s.publish env m ptxText putError).2)
  | (s, log), .reopen listing allowlist => (s.call env (.reopen listing allowlist), log)

/-- A registry opened on an empty directory, after some calls, with what it accepted. -/
def history (env : RegistryEnv Hash) (listing : Listing Hash) (allowlist : Option (List String))
    (calls : List (RegistryCall Hash)) : DiskRegistry Hash × List ManifestBlob :=
  run (logCall env) (openRegistry env listing ∅ allowlist, []) calls

theorem holds_empty (env : RegistryEnv Hash) : Holds env ∅ [] := by
  refine ⟨nodup_nil, nofun, nofun, ?_⟩
  intro hash raw
  simp

/-- A call adds to the log or leaves it. -/
theorem suffix_logCall (env : RegistryEnv Hash) (r : DiskRegistry Hash × List ManifestBlob) (call : RegistryCall Hash) :
    r.2 <:+ (logCall env r call).2 := by
  obtain ⟨s, log⟩ := r
  cases call with
  | reopen listing allowlist => exact suffix_refl _
  | publish m ptxText putError =>
    show log <:+ logPublish log (m, ptxText) (s.publish env m ptxText putError).2
    cases (s.publish env m ptxText putError).2 with
    | ok => exact suffix_cons ..
    | error e => exact suffix_refl _

/-- The log of a history without a collision is what its registry holds. -/
theorem represents_history (env : RegistryEnv Hash) (listing : Listing Hash) (allowlist : Option (List String))
    (calls : List (RegistryCall Hash)) (hcollision : env.NoCollision (history env listing allowlist calls).2) :
    Represents env (history env listing allowlist calls).1 (history env listing allowlist calls).2 := by
  -- the log only grows, so that what does not collide at the end has not collided before
  refine run_keeps (P := fun r : DiskRegistry Hash × List ManifestBlob =>
    env.NoCollision r.2 → Represents env r.1 r.2) ?_ ?_ calls hcollision
  · rintro ⟨s, log⟩ call h hafter
    have hbefore := h (hafter.mono (suffix_logCall env (s, log) call).subset)
    cases call with
    | publish m ptxText putError => exact hbefore.publish m ptxText putError hafter
    | reopen listing allowlist => exact represents_openRegistry hbefore.holds listing allowlist
  · intro _
    exact represents_openRegistry (holds_empty env) listing allowlist

/-- **The registry is its log.** After any history of publishes and restarts in which no two stored blobs
have one content hash, the index lists the sm versions of the keymap in order, no triple was accepted
twice, `get` answers with the highest accepted sm version, whose PTX has the signed digest, and a restart changes no answer. -/
theorem registry_consistent (env : RegistryEnv Hash) (listing : Listing Hash)
    (allowlist : Option (List String)) (calls : List (RegistryCall Hash)) (name version : String)
    (hcollision : env.NoCollision (history env listing allowlist calls).2) :
    let s := (history env listing allowlist calls).1
    let log := (history env listing allowlist calls).2
    ((s.smVersions name version).Pairwise (· < ·) ∧
      ∀ sm, sm ∈ s.smVersions name version ↔ (name, version, sm) ∈ s.keymap) ∧
    (log.map fun blob => blob.1.key).Nodup ∧
    (∀ blob, s.get env name version = .ok blob ↔ Highest log name version blob) ∧
    (∀ blob, s.get env name version = .ok blob → env.blake3 (utf8Bytes blob.2) = blob.1.digest) ∧
    ((∃ blob ∈ log, blob.1.name = name ∧ blob.1.version = version) → ∃ blob, s.get env name version = .ok blob) ∧
    ∀ listing' allowlist',
      (s.call env (.reopen listing' allowlist')).get env name version = s.get env name version := by
  intro s log
  have h : Represents env s log := represents_history env listing allowlist calls hcollision
  have hget : ∀ blob, s.get env name version = .ok blob ↔ Highest log name version blob := by
    intro blob
    rcases h.get name version with ⟨b, hb, hok⟩ | ⟨hnone, herror⟩
    · rw [hok]
      constructor
      · rintro ⟨⟩
        exact hb
      · intro hblob
        rw [hb.unique h.holds hblob]
    · rw [herror]
      refine iff_of_false nofun ?_
      intro hblob
      exact hnone blob hblob.1 ⟨hblob.2.1, hblob.2.2.1⟩
  refine ⟨⟨h.catalogued.sorted name version, ?_⟩, h.holds.distinct, hget, ?_, ?_, ?_⟩
  · intro sm
    rw [h.catalogued.index, ← AList.lookup_isSome, Option.isSome_iff_exists]
    constructor
    · rintro ⟨blob, hblob, hkey⟩
      obtain ⟨hash, hat⟩ := h.holds.encoded blob hblob
      exact ⟨⟨hash, blob.1⟩, (h.catalogued.keymap _ _).mpr ⟨blob, hblob, hkey, rfl, hat⟩⟩
    · rintro ⟨entry, hentry⟩
      obtain ⟨blob, hblob, hkey, -⟩ := (h.catalogued.keymap _ _).mp hentry
      exact ⟨blob, hblob, hkey⟩
  · intro blob hok
    exact (h.holds.verified blob ((hget blob).mp hok).1).2
  · rintro ⟨blob, hblob, hnamed⟩
    rcases h.get name version with ⟨b, -, hok⟩ | ⟨hnone, -⟩
    · exact ⟨b, hok⟩
    · exact absurd hnamed (hnone blob hblob)
  · intro listing' allowlist'
    exact (represents_openRegistry h.holds listing' allowlist').get_congr h name version

/-- Nothing that was accepted is lost: whatever calls and restarts follow, a kernel that was found is found again, or
another one in its place that was published for a higher sm version. No two blobs stored by the end have one content
hash. -/
theorem published_kernel_stays (env : RegistryEnv Hash) (listing : Listing Hash) (allowlist : Option (List String))
    (before after : List (RegistryCall Hash))
    (hcollision : env.NoCollision (history env listing allowlist (before ++ after)).2) :
    let old := history env listing allowlist before
    let new := history env listing allowlist (before ++ after)
    old.2 <:+ new.2 ∧ ∀ name version blob, old.1.get env name version = .ok blob →
      ∃ found, new.1.get env name version = .ok found ∧ (found = blob ∨ blob.1.smVersion < found.1.smVersion) := by
  intro old new
  have hlog : old.2 <:+ new.2 := by
    rw [show new = run (logCall env) old after from run_append ..]
    refine run_keeps (P := fun r : DiskRegistry Hash × _ => old.2 <:+ r.2) ?_ (suffix_refl _) after
    intro r call hsuffix
    exact hsuffix.trans (suffix_logCall env r call)
  refine ⟨hlog, fun name version blob hget => ?_⟩
  have hnew : Represents env new.1 new.2 := represents_history env listing allowlist _ hcollision
  have hold := represents_history env listing allowlist before (hcollision.mono hlog.subset)
  rcases hold.get name version with ⟨_, hb, hgot⟩ | ⟨-, hgot⟩
  · cases hgot.symm.trans hget
    rcases hnew.get name version with ⟨found, hfound, hgot'⟩ | ⟨hnone, -⟩
    · refine ⟨found, hgot', ?_⟩
      obtain ⟨hmem, rfl, rfl, -⟩ := hb
      rcases lt_or_eq_of_le (hfound.2.2.2 blob (hlog.subset hmem) rfl rfl) with hlt | heq
      · exact .inr hlt
      · refine .inl (hnew.holds.eq_of_key hfound.1 (hlog.subset hmem) ?_)
        simp [key, hfound.2.1, hfound.2.2.1, heq]
    · exact absurd ⟨hb.2.1, hb.2.2.1⟩ (hnone blob (hlog.subset hb.1))
  · cases hgot.symm.trans hget

end

/-! ## A kernel for two devices -/

def kernelFor (smVersion : UInt32) (ptxText : String) : ManifestBlob :=
  (⟨"add", "1", smVersion, Vector.replicate 32 1, Vector.replicate 32 2, 5, "ops", none⟩, ptxText)

/-- An environment whose codec takes two kernels and refuses every other, with hashes of one byte. -/
def twoKernelEnv (first second : ManifestBlob) : RegistryEnv UInt8 where
  blake3 _ := Vector.replicate 32 1
  hmac _ := List.replicate 32 2
  encodeManifestBlob blob :=
    if blob = first then .ok [1] else if blob = second then .ok [2] else .error (.codec "size limit")
  decodeManifestBlob bytes := if bytes = [1] then .ok first else .ok second
  contentHash bytes := bytes.headD 0
  decode_encode blob bytes h := by
    split at h
    · rename_i heq
      cases h
      exact congrArg Except.ok heq.symm
    · split at h
      · rename_i heq
        cases h
        exact congrArg Except.ok heq.symm
      · cases h

theorem noCollision_twoKernelEnv (first second : ManifestBlob) (log : List ManifestBlob) :
    (twoKernelEnv first second).NoCollision log := by
  have hbytes : ∀ blob bytes, (twoKernelEnv first second).encodeManifestBlob blob = .ok bytes →
      bytes = [bytes.headD 0] := by
    intro blob bytes h
    simp only [twoKernelEnv] at h
    split_ifs at h <;> cases h <;> rfl
  rintro x ⟨b, -, hx⟩ y ⟨b', -, hy⟩ hhash
  rw [hbytes b x hx, hbytes b' y hy]
  exact congrArg (fun n => [n]) hhash

def sm80And90 : RegistryEnv UInt8 := twoKernelEnv (kernelFor 80 "eighty") (kernelFor 90 "ninety")

def storeOrder : Listing UInt8 := ⟨id, fun _ _ => Iff.rfl⟩

/-- Both kernels are published, the first of them once more. -/
def bothPublished : DiskRegistry UInt8 × List ManifestBlob :=
  history sm80And90 storeOrder none
    [.publish (kernelFor 80 "eighty").1 "eighty" none, .publish (kernelFor 90 "ninety").1 "ninety" none,
      .publish (kernelFor 80 "eighty").1 "eighty" none]

/-- After both publishes every restart finds the kernel for the newer device. -/
theorem registry_consistent_restart :
    sm80And90.NoCollision bothPublished.2 ∧ bothPublished.2 = [kernelFor 90 "ninety", kernelFor 80 "eighty"] ∧
      ∀ listing allowlist, (bothPublished.1.call sm80And90 (.reopen listing allowlist)).get sm80And90 "add" "1" =
        .ok (kernelFor 90 "ninety") := by
  have hcollision := noCollision_twoKernelEnv (kernelFor 80 "eighty") (kernelFor 90 "ninety") bothPublished.2
  have hget : bothPublished.1.get sm80And90 "add" "1" = .ok (kernelFor 90 "ninety") := by decide +kernel
  refine ⟨hcollision, by decide +kernel, fun listing allowlist => ?_⟩
  obtain ⟨-, -, -, -, -, hreopen⟩ := registry_consistent sm80And90 storeOrder none _ "add" "1" hcollision
  exact (hreopen listing allowlist).trans hget

/-- The kernel of the first publish is behind that of the second. -/
theorem published_kernel_stays_both :
    sm80And90.NoCollision bothPublished.2 ∧
      ∃ found, bothPublished.1.get sm80And90 "add" "1" = .ok found ∧
        (found = kernelFor 80 "eighty" ∨ 80 < found.1.smVersion) := by
  have hcollision := noCollision_twoKernelEnv (kernelFor 80 "eighty") (kernelFor 90 "ninety") bothPublished.2
  refine ⟨hcollision, ?_⟩
  exact (published_kernel_stays sm80And90 storeOrder none [.publish (kernelFor 80 "eighty").1 "eighty" none] _
    hcollision).2 "add" "1" (kernelFor 80 "eighty") (by decide +kernel)

end TensorWasm.Jit
