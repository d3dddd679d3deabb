import TensorWasm.Jit.DiskGc
import TensorWasm.Proof.ArtifactStore

/-!
# What a sweep of the cache directory removes

A file goes only if its name carries the fingerprint of a key that is neither the active one nor
retained. Both printers of names, that of the sidecars and that of the blobs, put the fingerprint where
`fingerprintOfFilename` reads it, so that no file of a key that is kept is ever swept. The blobs are
swept along with the sidecars: a removed file need not be one that `path_for` names.
-/

namespace TensorWasm.Jit

open Lib List
open Artifacts (Primitives Block ContentHash blobName keyFingerprintHex stripSuffix
  stripSuffix_append mem_hexInto length_hexInto hexInto fingerprint_ne_dot rtakeWhile_segment)

/-! ## Reading a name -/

variable {suffix name rest : List Char}

theorem eq_of_stripSuffix (h : stripSuffix suffix name = some rest) : name = rest ++ suffix := by
  unfold stripSuffix at h
  split at h
  · rename_i hsuffix
    obtain ⟨front, rfl⟩ := isSuffixOf_iff_suffix.mp hsuffix
    simp_all
  · cases h

/-- The two shapes of a name that carries a fingerprint. -/
def Carries (name fp : List Char) : Prop :=
  (∃ tail, name = fp ++ tail ++ ".ptxbin".toList) ∨ ∃ head, name = head ++ fp ++ ".bin".toList

theorem carries_of_fingerprint {text fp : String} (h : fingerprintOfFilename text = some fp) :
    fp.utf8ByteSize = 16 ∧ Carries text.toList fp.toList := by
  unfold fingerprintOfFilename at h
  split at h
  · rename_i rest hrest
    simp only [Option.ite_none_left_eq_some, not_or, not_not, Option.some.injEq] at h
    obtain ⟨⟨-, hsize⟩, rfl⟩ := h
    refine ⟨hsize, .inl ⟨rest.dropWhile (· ≠ '-'), ?_⟩⟩
    simp [eq_of_stripSuffix hrest]
  · split at h
    · rename_i rest hrest
      simp only [Option.ite_none_left_eq_some, not_not, Option.some.injEq] at h
      obtain ⟨hsize, rfl⟩ := h
      refine ⟨hsize, .inr ⟨rest.rdropWhile (· ≠ '.'), ?_⟩⟩
      simp [eq_of_stripSuffix hrest]
    · cases h

/-! ## The names of the cache -/

theorem utf8Len_of_ascii {cs : List Char} (h : ∀ c ∈ cs, c.utf8Size = 1) : String.utf8Len cs = cs.length := by
  induction cs with
  | nil => rfl
  | cons c cs ih =>
    rw [String.utf8Len_cons, h c mem_cons_self, length_cons, ih fun c hc => h c (mem_cons_of_mem _ hc)]

theorem hexInto_ascii {bytes : Bytes} {c : Char} (h : c ∈ hexInto bytes) : c.utf8Size = 1 ∧ c ≠ '-' := by
  obtain ⟨d, hd, rfl⟩ := mem_hexInto h
  have hall : ∀ d : Fin 16, (Nat.digitChar d).utf8Size = 1 ∧ Nat.digitChar d ≠ '-' := by decide
  exact hall ⟨d, hd⟩

section Names

variable (P : Primitives) (k : Block)

/-- The hash as a function of bytes to bytes. -/
def hashBytes (bytes : Bytes) : Bytes := (P.blake3 bytes).toList

/-- The fingerprint of a key. -/
def fingerprintOf : String := keyFingerprint (hashBytes P) k.toList

theorem utf8ByteSize_fingerprintOf : (fingerprintOf P k).utf8ByteSize = 16 := by
  have hlength := length_hexInto ((hashBytes P k.toList).take 8)
  rw [length_take, hashBytes, List.Vector.toList_length] at hlength
  exact (String.utf8ByteSize_ofList _).trans
    ((utf8Len_of_ascii fun c hc => (hexInto_ascii hc).1).trans hlength)

theorem ofList_fingerprint : String.ofList (keyFingerprintHex P k) = fingerprintOf P k := rfl

theorem stripSuffix_pathFor (blake3 : Bytes → Bytes) (fp : String) (key : CacheKey) :
    ∃ tail, stripSuffix ".ptxbin".toList (pathFor blake3 fp key).toList = some (fp.toList ++ '-' :: tail) := by
  have hname (a b : String) : (s!"{a}-{b}.ptxbin").toList = (a.toList ++ '-' :: b.toList) ++ ".ptxbin".toList := by
    simp [toString]
  rw [pathFor, hname, stripSuffix_append]
  exact ⟨_, rfl⟩

theorem fingerprintOfFilename_pathFor (key : CacheKey) :
    fingerprintOfFilename (pathFor (hashBytes P) (fingerprintOf P k) key) = some (fingerprintOf P k) := by
  have hdash : ∀ c ∈ keyFingerprintHex P k, decide (c ≠ '-') = true :=
    fun c hc => decide_eq_true (hexInto_ascii hc).2
  have hsize := utf8ByteSize_fingerprintOf P k
  obtain ⟨tail, htail⟩ := stripSuffix_pathFor (hashBytes P) (fingerprintOf P k) key
  rw [fingerprintOfFilename, htail, ← ofList_fingerprint, String.toList_ofList]
  dsimp only
  rw [takeWhile_append_of_pos hdash, takeWhile_cons_of_neg (by simp), append_nil,
    ofList_fingerprint]
  rw [if_neg]
  simp [hsize, ← String.utf8ByteSize_eq_zero_iff]

theorem fingerprintOfFilename_blobName (hash : ContentHash) :
    fingerprintOfFilename (String.ofList (blobName P hash k)) = some (fingerprintOf P k) := by
  have hname : blobName P hash k = (hexInto hash.toList ++ '.' :: keyFingerprintHex P k) ++ ".bin".toList := by
    simp [blobName]
  have hother : stripSuffix ".ptxbin".toList (blobName P hash k) = none := by
    rw [hname, stripSuffix]
    simp [List.isSuffixOf, List.isPrefixOf]
  rw [fingerprintOfFilename, String.toList_ofList (l := blobName P hash k), hother, hname, stripSuffix_append]
  dsimp only
  rw [rtakeWhile_segment (fingerprint_ne_dot P k), ofList_fingerprint, utf8ByteSize_fingerprintOf]
  rfl

end Names

/-! ## The sweep -/

variable {active : String} {retain : List String} {removeFile : Bytes → RemoveFile} {name : Bytes}

/-- What the loop removes was removed before, or it is listed and stale. -/
theorem mem_gcEntries {names : List (Except String Bytes)} {removed : List Bytes}
    (h : name ∈ (gcEntries active retain removeFile names removed).removed) :
    name ∈ removed ∨ .ok name ∈ names ∧ stale active retain name = true := by
  fun_induction gcEntries active retain removeFile names removed with
  | case1 | case2 => exact .inl h
  | case3 removed name' rest hstale hremove ih =>
    rcases ih h with hmem | ⟨hmem, hname⟩
    · rcases mem_append.mp hmem with hmem | hmem
      · exact .inl hmem
      · rw [mem_singleton.mp hmem]
        exact .inr ⟨mem_cons_self, hstale⟩
    · exact .inr ⟨mem_cons_of_mem _ hmem, hname⟩
  | case4 removed name' rest hstale hremove ih | case6 removed name' rest hstale ih =>
    exact (ih h).imp_right fun ⟨hmem, hname⟩ => ⟨mem_cons_of_mem _ hmem, hname⟩
  | case5 => exact .inl h

theorem stale_iff : stale active retain name = true ↔
    ∃ text fp, ofUtf8 name = some text ∧ fingerprintOfFilename text = some fp ∧ fp ≠ active ∧ fp ∉ retain := by
  unfold stale
  split
  · simp_all
  · split <;> simp_all

/-- The names that a directory lists. -/
def ReadDir.names : ReadDir → List (Except String Bytes)
  | .entries names => names
  | _ => []

theorem mem_diskGc {blake3 : Bytes → Bytes} {hmacKey : Bytes} {readDir : ReadDir}
    (h : name ∈ (diskGc blake3 hmacKey retain readDir removeFile).removed) :
    .ok name ∈ readDir.names ∧ stale (keyFingerprint blake3 hmacKey) retain name = true := by
  unfold diskGc at h
  cases readDir with
  | notFound | failed reason => cases h
  | entries names => exact (mem_gcEntries h).resolve_left not_mem_nil

/-- Whatever the directory lists and however removals end, a file that a sweep removes is listed and has
a name with the fingerprint of a key that is neither active nor retained; no sidecar and no blob of a
key that is active or retained is removed, and neither is a name without a fingerprint. -/
theorem gc_sweeps_stale_generations (P : Primitives) (hmacKey : Block) (retain : List String)
    (readDir : ReadDir) (removeFile : Bytes → RemoveFile) :
    let removed := (diskGc (hashBytes P) hmacKey.toList retain readDir removeFile).removed
    let kept := fun fp => fp = fingerprintOf P hmacKey ∨ fp ∈ retain
    (∀ name ∈ removed, .ok name ∈ readDir.names ∧ ∃ text fp, ofUtf8 name = some text ∧
      fingerprintOfFilename text = some fp ∧ ¬ kept fp ∧ fp.utf8ByteSize = 16 ∧ Carries text.toList fp.toList) ∧
    (∀ k : Block, kept (fingerprintOf P k) →
      (∀ key, utf8Bytes (pathFor (hashBytes P) (fingerprintOf P k) key) ∉ removed) ∧
      ∀ hash, utf8Bytes (String.ofList (blobName P hash k)) ∉ removed) ∧
    ∀ name, (∀ text, ofUtf8 name = some text → fingerprintOfFilename text = none) → name ∉ removed := by
  intro removed kept
  have hremoved : ∀ name ∈ removed, .ok name ∈ readDir.names ∧ ∃ text fp, ofUtf8 name = some text ∧
      fingerprintOfFilename text = some fp ∧ ¬ kept fp := by
    intro name hname
    obtain ⟨hlisted, hstale⟩ := mem_diskGc hname
    obtain ⟨text, fp, htext, hfp, hactive, hretain⟩ := stale_iff.mp hstale
    exact ⟨hlisted, text, fp, htext, hfp, not_or.mpr ⟨hactive, hretain⟩⟩
  have hkeeps {text fp : String} (hfp : fingerprintOfFilename text = some fp) (hkept : kept fp) :
      utf8Bytes text ∉ removed := by
    intro hmem
    obtain ⟨-, text', fp', htext, hfp', hnot⟩ := hremoved _ hmem
    rw [ofUtf8_utf8Bytes] at htext
    cases htext
    rw [hfp] at hfp'
    cases hfp'
    exact hnot hkept
  refine ⟨?_, ?_, ?_⟩
  · intro name hname
    obtain ⟨hlisted, text, fp, htext, hfp, hnot⟩ := hremoved name hname
    exact ⟨hlisted, text, fp, htext, hfp, hnot, carries_of_fingerprint hfp⟩
  · intro k hk
    exact ⟨fun key => hkeeps (fingerprintOfFilename_pathFor P k key) hk,
      fun hash => hkeeps (fingerprintOfFilename_blobName P k hash) hk⟩
  · intro name hnone hmem
    obtain ⟨-, text, fp, htext, hfp, -⟩ := hremoved name hmem
    rw [hnone text htext] at hfp
    cases hfp

/-- A blob of another key is swept, and `path_for` names no blob. -/
theorem gc_removes_blob :
    let name := String.ofList (List.replicate 64 '0') ++ ".0202020202020202.bin"
    utf8Bytes name ∈ (diskGc (fun _ => List.replicate 32 1) [] [] (.entries [.ok (utf8Bytes name)])
      fun _ => .ok).removed ∧
    ∀ blake3 fp key, pathFor blake3 fp key ≠ name := by
  refine ⟨by decide +kernel, fun blake3 fp key h => ?_⟩
  obtain ⟨tail, htail⟩ := stripSuffix_pathFor blake3 fp key
  have hother : stripSuffix ".ptxbin".toList
      (String.ofList (List.replicate 64 '0') ++ ".0202020202020202.bin").toList = none := by decide +kernel
  rw [h, hother] at htail
  cases htail

end TensorWasm.Jit
