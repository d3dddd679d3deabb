import TensorWasm.Proof.Registry

/-!
# The keys of the in-memory registry

The in-memory registry files a kernel under the text `name@version`. What it holds under a text is the
first kernel of that text that passed the checks, so a lookup finds the name and version it asks for
exactly when no other pair with the same text came first. Names and versions are free texts, and a
sign `@` in one of them is enough for two pairs to share their text.
-/

namespace TensorWasm.Jit

open Lib

section

variable (blake3 : Bytes → Vector UInt8 32) (hmac : Bytes → Bytes)

/-- A publish call, with the blobs accepted so far, the last one first. -/
def publishLogged (r : InMemoryRegistry × List ManifestBlob) (blob : ManifestBlob) :
    InMemoryRegistry × List ManifestBlob :=
  ((r.1.publish blake3 hmac blob.1 blob.2).1, logPublish r.2 blob (r.1.publish blake3 hmac blob.1 blob.2).2)

/-- A new registry after some publish calls, with what it accepted. -/
def published (calls : List ManifestBlob) : InMemoryRegistry × List ManifestBlob :=
  run (publishLogged blake3 hmac) (.new, []) calls

/-- The text a blob is filed under. -/
def filedUnder (blob : ManifestBlob) : String := atVersion blob.1.name blob.1.version

/-- A blob that passes the checks and has a given text. -/
def answersTo (key : String) (blob : ManifestBlob) : Bool :=
  (checkKernel blake3 hmac blob).isOk && filedUnder blob == key

theorem checkKernel_ne_alreadyRegistered (blob : ManifestBlob) (what : String) :
    checkKernel blake3 hmac blob ≠ .error (.alreadyRegistered what) := by
  unfold checkKernel verifyManifestSignature
  split
  · simp
  · split <;> simp

variable (s : InMemoryRegistry)

/-- A publish changes nothing, or files a sound blob under a text that was free. -/
theorem InMemoryRegistry.publish_cases (blob : ManifestBlob) :
    (∃ e, checkKernel blake3 hmac blob = .error e ∧ s.publish blake3 hmac blob.1 blob.2 = (s, .error e)) ∨
    (checkKernel blake3 hmac blob = .ok () ∧ filedUnder blob ∈ s.entries ∧
      s.publish blake3 hmac blob.1 blob.2 = (s, .error (.alreadyRegistered (filedUnder blob)))) ∨
    (checkKernel blake3 hmac blob = .ok () ∧ filedUnder blob ∉ s.entries ∧
      s.publish blake3 hmac blob.1 blob.2 = (⟨s.entries.insert (filedUnder blob) blob⟩, .ok ())) := by
  unfold InMemoryRegistry.publish
  cases hcheck : checkKernel blake3 hmac blob with
  | error e => exact .inl ⟨e, rfl, rfl⟩
  | ok _ =>
    dsimp only
    by_cases hmem : filedUnder blob ∈ s.entries
    · exact .inr (.inl ⟨rfl, hmem, if_pos hmem⟩)
    · exact .inr (.inr ⟨rfl, hmem, if_neg hmem⟩)

variable {blake3 hmac}

/-- One call: a text that is taken keeps its blob, a free one gets the blob if it answers to it. -/
theorem lookup_publish (blob : ManifestBlob) (key : String) :
    (s.publish blake3 hmac blob.1 blob.2).1.entries.lookup key =
      (s.entries.lookup key).or (if answersTo blake3 hmac key blob then some blob else none) := by
  rcases s.publish_cases blake3 hmac blob with
    ⟨e, hcheck, heq⟩ | ⟨hcheck, hmem, heq⟩ | ⟨hcheck, hmem, heq⟩
  · simp [heq, answersTo, hcheck, Except.isOk, Except.toBool]
  · rw [heq]
    by_cases hkey : filedUnder blob = key
    · obtain ⟨old, hold⟩ := Option.isSome_iff_exists.mp (AList.lookup_isSome.mpr (hkey ▸ hmem))
      simp [hold]
    · simp [answersTo, hkey]
  · rw [heq]
    by_cases hkey : filedUnder blob = key
    · have hfree : s.entries.lookup key = none := AList.lookup_eq_none.mpr (hkey ▸ hmem)
      rw [← hkey, AList.lookup_insert, hkey, hfree]
      simp [answersTo, hcheck, hkey, Except.isOk, Except.toBool]
    · rw [AList.lookup_insert_ne (Ne.symm hkey)]
      simp [answersTo, hkey]

/-- The registry holds under each text the first blob of the calls that answers to it. -/
theorem lookup_published (calls : List ManifestBlob) (key : String) :
    (published blake3 hmac calls).1.entries.lookup key = calls.find? (answersTo blake3 hmac key) := by
  have hrun : ∀ r : InMemoryRegistry × List ManifestBlob,
      (run (publishLogged blake3 hmac) r calls).1.entries.lookup key =
        (r.1.entries.lookup key).or (calls.find? (answersTo blake3 hmac key)) := by
    induction calls with
    | nil => simp
    | cons blob calls ih =>
      intro r
      rw [run_cons, ih, publishLogged, lookup_publish, List.find?_cons, Option.or_assoc]
      cases answersTo blake3 hmac key blob <;> simp
  rw [published, hrun]
  simp [InMemoryRegistry.new]

/-- What is filed was accepted. -/
theorem mem_log_of_lookup (calls : List ManifestBlob) {key : String} {blob : ManifestBlob}
    (h : (published blake3 hmac calls).1.entries.lookup key = some blob) :
    blob ∈ (published blake3 hmac calls).2 := by
  have hkept : ∀ key blob, (published blake3 hmac calls).1.entries.lookup key = some blob →
      blob ∈ (published blake3 hmac calls).2 := by
    refine run_keeps (P := fun r : InMemoryRegistry × List ManifestBlob =>
      ∀ key blob, r.1.entries.lookup key = some blob → blob ∈ r.2) ?_ ?_ calls
    · intro r new hr key blob hlookup
      rw [publishLogged] at hlookup ⊢
      rcases r.1.publish_cases blake3 hmac new with
        ⟨e, -, heq⟩ | ⟨-, -, heq⟩ | ⟨-, -, heq⟩
      · rw [heq] at hlookup ⊢
        exact hr key blob hlookup
      · rw [heq] at hlookup ⊢
        exact hr key blob hlookup
      · rw [heq] at hlookup ⊢
        by_cases hkey : key = filedUnder new
        · subst hkey
          rw [AList.lookup_insert] at hlookup
          exact List.mem_cons.mpr (.inl (Option.some.inj hlookup).symm)
        · rw [AList.lookup_insert_ne hkey] at hlookup
          exact List.mem_cons.mpr (.inr (hr key blob hlookup))
    · intro key blob hlookup
      simp [InMemoryRegistry.new] at hlookup
  exact hkept key blob h

/-- After some publish calls a name and version mean themselves: a lookup finds no other, and a publish
is refused as registered only where they were accepted before. -/
structure Unaliased (blake3 : Bytes → Vector UInt8 32) (hmac : Bytes → Bytes)
    (calls : List ManifestBlob) (name version : String) : Prop where
  found : ∀ blob, (published blake3 hmac calls).1.get name version = .ok blob →
    blob.1.name = name ∧ blob.1.version = version
  refused : ∀ m ptxText what, m.name = name → m.version = version →
    ((published blake3 hmac calls).1.publish blake3 hmac m ptxText).2 = .error (.alreadyRegistered what) →
    ∃ blob ∈ (published blake3 hmac calls).2, blob.1.name = name ∧ blob.1.version = version

theorem InMemoryRegistry.get_eq_ok (name version : String) (blob : ManifestBlob) :
    s.get name version = .ok blob ↔ s.entries.lookup (atVersion name version) = some blob := by
  unfold InMemoryRegistry.get
  cases s.entries.lookup (atVersion name version) <;> simp

/-- **Keys of the in-memory registry.** A name and version mean themselves exactly when the first
call with their text that passes the checks was for them. -/
theorem unaliased_iff (blake3 : Bytes → Vector UInt8 32) (hmac : Bytes → Bytes)
    (calls : List ManifestBlob) (name version : String) :
    Unaliased blake3 hmac calls name version ↔
      ∀ blob, calls.find? (answersTo blake3 hmac (atVersion name version)) = some blob →
        blob.1.name = name ∧ blob.1.version = version := by
  constructor
  · intro h blob hfirst
    refine h.found blob ((InMemoryRegistry.get_eq_ok _ _ _ _).mpr ?_)
    rw [lookup_published, hfirst]
  · intro h
    refine ⟨?_, ?_⟩
    · intro blob hget
      rw [InMemoryRegistry.get_eq_ok, lookup_published] at hget
      exact h blob hget
    · rintro m ptxText what rfl rfl hrefused
      rcases InMemoryRegistry.publish_cases blake3 hmac (published blake3 hmac calls).1 (m, ptxText) with
        ⟨e, hcheck, heq⟩ | ⟨-, hmem, -⟩ | ⟨-, -, heq⟩
      · -- the checks themselves never say that a kernel is registered
        rw [heq] at hrefused
        obtain rfl := Except.error.inj hrefused
        exact absurd hcheck (checkKernel_ne_alreadyRegistered blake3 hmac _ _)
      · obtain ⟨blob, hblob⟩ := Option.isSome_iff_exists.mp (AList.lookup_isSome.mpr hmem)
        exact ⟨blob, mem_log_of_lookup calls hblob, h blob (lookup_published calls _ ▸ hblob)⟩
      · rw [heq] at hrefused
        cases hrefused

end

/-- A kernel that passes the checks when every digest is ones and every tag is twos. -/
def plainKernel (name version : String) : ManifestBlob :=
  (⟨name, version, 80, Vector.replicate 32 1, Vector.replicate 32 2, 5, "ops", none⟩, "ptx")

/-- With a sign `@` in the name of one and in the version of another, a lookup finds the wrong kernel,
and the right one is refused although it was never published. -/
theorem sign_in_name_aliases :
    let ones : Bytes → Vector UInt8 32 := fun _ => Vector.replicate 32 1
    let twos : Bytes → Bytes := fun _ => List.replicate 32 2
    let calls := [plainKernel "a@b" "c"]
    (published ones twos calls).2 = calls ∧
      (published ones twos calls).1.get "a" "b@c" = .ok (plainKernel "a@b" "c") ∧
      ((published ones twos calls).1.publish ones twos (plainKernel "a" "b@c").1 "ptx").2 =
        .error (.alreadyRegistered "a@b@c") := by
  decide +kernel

end TensorWasm.Jit
