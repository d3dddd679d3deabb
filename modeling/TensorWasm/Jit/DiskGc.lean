import TensorWasm.Jit.DiskCache
import TensorWasm.Artifacts.Store

/-!
# Sweeping the cache directory

`gc` of `DiskCache` (`tensor-wasm-jit/src/cache.rs`). The files of the cache carry the fingerprint of
the HMAC key they were written under: a sidecar before the first dash of its name, a blob of the
artifact store before its extension. `gc` reads the fingerprint off a name and removes the file unless
the fingerprint is its own or one to retain. What the directory lists and how each removal ends are
inputs; a name is its bytes, and one that is not UTF-8 is passed over.
-/

namespace TensorWasm.Jit

open Lib

/-- `KeyFingerprint::of_key`: the first eight bytes of the hash of the key. -/
def keyFingerprint (blake3 : Bytes → Bytes) (hmacKey : Bytes) : String :=
  hexEncode ((blake3 hmacKey).take 8)

/-- Read the fingerprint off a file name: for a sidecar what stands before the first dash, for a blob
what stands after the last dot of the stem. The lengths are in bytes. -/
def fingerprintOfFilename (name : String) : Option String :=
  match Artifacts.stripSuffix ".ptxbin".toList name.toList with
  | some rest =>
    let fp := String.ofList (rest.takeWhile (· ≠ '-'))
    if fp.isEmpty ∨ fp.utf8ByteSize ≠ 16 then none else some fp
  | none =>
    match Artifacts.stripSuffix ".bin".toList name.toList with
    | some rest =>
      let fp := String.ofList (rest.rtakeWhile (· ≠ '.'))
      if fp.utf8ByteSize ≠ 16 then none else some fp
    | none => none

/-- What `read_dir` gives: no directory, a failure, or its entries, each a name or a failure. -/
inductive ReadDir where
  | notFound
  | failed (reason : String)
  | entries (names : List (Except String Bytes))

/-- How `remove_file` ends. -/
inductive RemoveFile where
  | ok
  | notFound
  | failed (reason : String)

/-- The files that a sweep has removed, with its answer. -/
structure Swept where
  removed : List Bytes
  answer : Except String Nat
  deriving DecidableEq

/-- Whether a name is one to remove. -/
def stale (active : String) (retain : List String) (name : Bytes) : Bool :=
  match ofUtf8 name with
  | none => false
  | some text =>
    match fingerprintOfFilename text with
    | none => false
    | some fp => !(fp == active || retain.contains fp)

/-- The loop over the entries; it ends at the first failure. -/
def gcEntries (active : String) (retain : List String) (removeFile : Bytes → RemoveFile) :
    List (Except String Bytes) → List Bytes → Swept
  | [], removed => ⟨removed, .ok removed.length⟩
  | .error reason :: _, removed => ⟨removed, .error reason⟩
  | .ok name :: rest, removed =>
    if stale active retain name then
      match removeFile name with
      | .ok => gcEntries active retain removeFile rest (removed ++ [name])
      | .notFound => gcEntries active retain removeFile rest removed
      | .failed reason => ⟨removed, .error reason⟩
    else gcEntries active retain removeFile rest removed

def diskGc (blake3 : Bytes → Bytes) (hmacKey : Bytes) (retain : List String)
    (readDir : ReadDir) (removeFile : Bytes → RemoveFile) : Swept :=
  let active := keyFingerprint blake3 hmacKey
  match readDir with
  | .notFound => ⟨[], .ok 0⟩
  | .failed reason => ⟨[], .error reason⟩
  | .entries names => gcEntries active retain removeFile names []

end TensorWasm.Jit
