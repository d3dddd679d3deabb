import TensorWasm.Jit.Registry

/-!
# Listing a registry

Both registries cut their pages out of the order in which their map is walked, so the pages are the whole walk
(`pages_eq`). The listing of the disk registry is its first page of the default length: it is complete just when
that page holds everything.
-/

namespace TensorWasm.Jit

open List
open KeymapEntry (manifest)
open DiskRegistry (list listPaginated)

variable {Hash : Type}

/-- The pages of a given size, one behind the other. -/
def pages (page : Nat → Nat → List KernelManifest) (size n : Nat) : List KernelManifest :=
  (List.range n).flatMap fun k => page (k * size) size

/-- The listing has each registered manifest once, and so have the pages, if there are enough of them. -/
structure ListsAll (registered list : List KernelManifest) (page : Nat → Nat → List KernelManifest) : Prop where
  complete : list.Perm registered
  paged : ∀ size n, 1 ≤ size → size ≤ diskRegistryMaxLimit → registered.length ≤ n * size → pages page size n = list

variable {page : Nat → Nat → List KernelManifest}

theorem pages_eq {all : List KernelManifest} {size : Nat}
    (hpage : ∀ offset, page offset size = (all.drop offset).take size) (n : Nat) :
    pages page size n = all.take (n * size) := by
  induction n with
  | zero => simp [pages]
  | succ n ih =>
    rw [pages, range_succ, flatMap_append, ← pages, ih, flatMap_singleton, hpage, ← take_add, Nat.succ_mul]

/-- A listing whose pages are cut from `all` lists everything just when it is `all`. -/
theorem listsAll_iff {registered list all : List KernelManifest} (hall : all.Perm registered)
    (hpage : ∀ offset size, size ≤ diskRegistryMaxLimit → page offset size = (all.drop offset).take size) :
    ListsAll registered list page ↔ list = all := by
  have hpages : ∀ size n, size ≤ diskRegistryMaxLimit → registered.length ≤ n * size → pages page size n = all := by
    intro size n hsize hn
    rw [pages_eq (hpage · size hsize), take_of_length_le (hall.length_eq.trans_le hn)]
  constructor
  · intro h
    have hn : registered.length ≤ registered.length * 1 := Nat.le_of_eq (Nat.mul_one _).symm
    rw [← h.paged 1 _ (Nat.le_refl 1) (by decide) hn, hpages 1 _ (by decide) hn]
  · rintro rfl
    exact ⟨hall, fun size n _ hsize hn => hpages size n hsize hn⟩

/-! ## The two registries -/

/-- What the loop adds to the manifests it has. -/
theorem listEntries_eq (offset limit i : Nat) (walk : List (KeymapEntry Hash)) (out : List KernelManifest) :
    listEntries offset limit i walk out =
      out ++ ((walk.drop (offset - i)).take (limit - out.length)).map manifest := by
  induction walk generalizing i out with
  | nil => simp [listEntries]
  | cons entry walk ih =>
    rw [listEntries]
    split
    · next hskip =>
      rw [ih, show offset - i = offset - (i + 1) + 1 by omega, drop_succ_cons]
    · next hstart =>
      rw [show offset - i = 0 by omega, drop_zero]
      split
      · next hfull => rw [Nat.sub_eq_zero_of_le hfull, take_zero, map_nil, append_nil]
      · next hroom =>
        rw [ih, show offset - (i + 1) = 0 by omega, drop_zero, length_append, length_singleton,
          show limit - out.length = limit - (out.length + 1) + 1 by omega, take_succ_cons, map_cons,
          append_assoc, singleton_append]

theorem DiskRegistry.listPaginated_eq (walk : List (KeymapEntry Hash)) (offset limit : Nat) :
    listPaginated walk offset limit =
      ((walk.map manifest).drop offset).take (min limit diskRegistryMaxLimit) := by
  rw [listPaginated, listEntries_eq, nil_append, map_take, map_drop]
  rfl

/-- In whatever order the maps are walked, the pages of both registries are all of it. So is the listing of the
in-memory registry; that of the disk registry is its first entries, which are all of them just when there are no more
than the default length of a page. -/
theorem registry_listing (m : InMemoryRegistry) (s : DiskRegistry Hash) (walk : List ManifestBlob)
    (hwalk : walk.Perm (m.entries.entries.map Sigma.snd)) (order : List (KeymapEntry Hash))
    (horder : order.Perm (s.keymap.entries.map Sigma.snd)) :
    ListsAll (m.entries.entries.map fun e => e.2.1) (InMemoryRegistry.list walk)
        (InMemoryRegistry.listPaginated walk) ∧
      ListsAll (s.keymap.entries.map fun e => e.2.manifest) (order.map manifest)
        (listPaginated order) ∧
      list order = (order.map manifest).take diskRegistryDefaultLimit ∧
      (ListsAll (s.keymap.entries.map fun e => e.2.manifest) (list order)
          (listPaginated order) ↔ s.keymap.entries.length ≤ diskRegistryDefaultLimit) := by
  have hmanifests : (order.map manifest).Perm (s.keymap.entries.map fun e => e.2.manifest) := by
    simpa [Function.comp_def] using horder.map manifest
  have hdisk (list : List KernelManifest) : ListsAll (s.keymap.entries.map fun e => e.2.manifest) list
      (listPaginated order) ↔ list = order.map manifest := by
    refine listsAll_iff hmanifests ?_
    intro offset size hsize
    rw [DiskRegistry.listPaginated_eq, Nat.min_eq_left hsize]
  have hlist : list order = (order.map manifest).take diskRegistryDefaultLimit :=
    DiskRegistry.listPaginated_eq order 0 diskRegistryDefaultLimit
  refine ⟨(listsAll_iff ?_ ?_).mpr rfl, (hdisk _).mpr rfl, hlist, ?_⟩
  · simpa [InMemoryRegistry.list, Function.comp_def] using hwalk.map Prod.fst
  · intro offset size hsize
    rw [InMemoryRegistry.listPaginated, Nat.min_eq_left hsize]
  · have hlen := horder.length_eq
    rw [length_map] at hlen
    rw [hdisk, hlist, take_eq_self_iff, length_map, hlen]

/-- A manifest of the kernel that has no name, for one version of the architecture. -/
def namelessManifest (sm : UInt32) : KernelManifest := ⟨"", "", sm, .replicate 32 0, .replicate 32 0, 0, "", none⟩

/-- The manifests for `n` versions, each under its own key. -/
def namelessKeymap (n : Nat) : AList fun _ : String × String × UInt32 => KeymapEntry Nat :=
  (List.range n).foldl (fun m i => m.insert ("", "", UInt32.ofNat i) ⟨i, namelessManifest (UInt32.ofNat i)⟩) ∅

theorem registry_listing_two :
    ListsAll ((namelessKeymap 2).entries.map fun e => e.2.manifest)
      (list ((namelessKeymap 2).entries.map Sigma.snd))
      (listPaginated ((namelessKeymap 2).entries.map Sigma.snd)) :=
  (registry_listing .new ⟨∅, namelessKeymap 2, ∅, none⟩ [] (.refl _) _ (.refl _)).2.2.2.mpr (by decide)

/-- Of 101 manifests the disk registry lists 100. -/
theorem registry_listing_cut :
    (namelessKeymap 101).entries.length = 101 ∧
      (list ((namelessKeymap 101).entries.map Sigma.snd)).length = 100 := by
  have hlen : (namelessKeymap 101).entries.length = 101 := by decide +kernel
  refine ⟨hlen, ?_⟩
  rw [list, DiskRegistry.listPaginated_eq]
  simp [hlen, diskRegistryDefaultLimit, diskRegistryMaxLimit]

end TensorWasm.Jit
