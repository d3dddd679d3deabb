import TensorWasm.Wasm.Syntax

/-!
# The re-encoding driver

The rewriter does not walk the module itself: it overrides methods of the `Reencode` trait of
`wasm-encoder`, which are the fields of `Reencoder`, and hands control to `parse_core_module`. That
driver is third-party code, so it is a parameter. A `Driver` is any function whose results are walks;
`Walks` has one constructor for each thing that is relied on. Sections are written in file order. The
hook is asked before a section is written, ahead of the override that parses the section or behind it,
and once at the end. What is not overridden is copied with its function indices mapped. What becomes of
the contents of a custom section is left open, as is whether the hook is asked there.
-/

namespace TensorWasm.Wasm

/-- The overridable methods, over the reencoder's own state. -/
structure Reencoder (σ : Type) where
  functionIndex : σ → UInt32 → UInt32
  parseTypeSection : σ → List (Option FuncType) → σ × List (Option FuncType)
  parseImportSection : σ → List Import → σ × List Import
  parseFunctionBody : σ → FuncBody → σ × FuncBody
  intersperseSectionHook : σ → Module → Option SectionId → Option SectionId → σ × Module

namespace Reencoder

variable {σ : Type} (r : Reencoder σ)

/-- The bodies of a code section are parsed in order. -/
inductive Bodies : σ → List FuncBody → σ → List FuncBody → Prop
  | nil (s : σ) : Bodies s [] s []
  | cons {s s' : σ} {b : FuncBody} {bs bs' : List FuncBody} (h : Bodies (r.parseFunctionBody s b).1 bs s' bs') :
    Bodies s (b :: bs) s' ((r.parseFunctionBody s b).2 :: bs')

/-- What a section is re-encoded as. -/
inductive Encodes : σ → Section → σ → Section → Prop
  | custom (s : σ) (name name' : String) (bytes bytes' : List UInt8) :
    Encodes s (.custom name bytes) s (.custom name' bytes')
  | type (s : σ) (ts : List (Option FuncType)) :
    Encodes s (.type ts) (r.parseTypeSection s ts).1 (.type (r.parseTypeSection s ts).2)
  | import (s : σ) (is : List Import) :
    Encodes s (.import is) (r.parseImportSection s is).1 (.import (r.parseImportSection s is).2)
  | code {s s' : σ} {bs bs' : List FuncBody} (h : r.Bodies s bs s' bs') : Encodes s (.code bs) s' (.code bs')
  | other (s : σ) {sec : Section} (hid : sec.id ∉ [.custom, .type, .import, .code]) :
    Encodes s sec s (sec.mapFunc (r.functionIndex s))

/-- One section is written behind `out`. -/
inductive Writes : σ → Module → Section → σ → Module → Prop
  | custom {s s' : σ} {out : Module} {name : String} {bytes : List UInt8} {sec : Section}
      (hencodes : r.Encodes s (.custom name bytes) s' sec) : Writes s out (.custom name bytes) s' (out ++ [sec])
  | hookFirst {s s₁ s' : σ} {out out₁ : Module} {sec sec' : Section} {after : Option SectionId}
      (hhook : r.intersperseSectionHook s out after (some sec.id) = (s₁, out₁))
      (hencodes : r.Encodes s₁ sec s' sec') : Writes s out sec s' (out₁ ++ [sec'])
  | hookLast {s s₁ s' : σ} {out out₁ : Module} {sec sec' : Section} {after : Option SectionId}
      (hencodes : r.Encodes s sec s₁ sec')
      (hhook : r.intersperseSectionHook s₁ out after (some sec.id) = (s', out₁)) :
    Writes s out sec s' (out₁ ++ [sec'])

/-- The sections of a module are written behind `out`, one after the other. -/
inductive Walks : σ → Module → Module → σ → Module → Prop
  | finish {s s' : σ} {out out' : Module} {after : Option SectionId}
      (hhook : r.intersperseSectionHook s out after none = (s', out')) : Walks s out [] s' out'
  | step {s s₁ s' : σ} {out out₁ out' : Module} {sec : Section} {rest : Module}
      (hwrites : r.Writes s out sec s₁ out₁) (h : Walks s₁ out₁ rest s' out') : Walks s out (sec :: rest) s' out'

end Reencoder

/-- A driver: it may fail, and what it returns is a walk over the whole module. -/
structure Driver (σ : Type) where
  parseCoreModule : Reencoder σ → σ → Module → Except String (σ × Module)
  walks : ∀ r s m s' out, parseCoreModule r s m = .ok (s', out) → r.Walks s [] m s' out

/-! ## A driver that keeps to this -/

namespace Reencoder

variable {σ : Type} (r : Reencoder σ)

def bodies : σ → List FuncBody → σ × List FuncBody
  | s, [] => (s, [])
  | s, b :: bs =>
    let (s, b) := r.parseFunctionBody s b
    let (s, bs) := bodies s bs
    (s, b :: bs)

def encode (s : σ) : Section → σ × Section
  | .custom name bytes => (s, .custom name bytes)
  | .type ts => ((r.parseTypeSection s ts).1, .type (r.parseTypeSection s ts).2)
  | .import is => ((r.parseImportSection s is).1, .import (r.parseImportSection s is).2)
  | .code bs => ((r.bodies s bs).1, .code (r.bodies s bs).2)
  | sec => (s, sec.mapFunc (r.functionIndex s))

def walk : σ → Module → Module → σ × Module
  | s, out, [] => r.intersperseSectionHook s out none none
  | s, out, sec :: rest =>
    let (s, out) := r.intersperseSectionHook s out none (some sec.id)
    let (s, sec) := r.encode s sec
    walk s (out ++ [sec]) rest

variable (s : σ)

theorem bodies_bodies (bs : List FuncBody) : r.Bodies s bs (r.bodies s bs).1 (r.bodies s bs).2 := by
  induction bs generalizing s with
  | nil => exact .nil s
  | cons b bs ih => exact .cons (ih _)

theorem encodes_encode (sec : Section) : r.Encodes s sec (r.encode s sec).1 (r.encode s sec).2 := by
  cases sec with
  | custom name bytes => exact .custom ..
  | type ts => exact .type ..
  | «import» is => exact .import ..
  | code bs => exact .code (r.bodies_bodies s bs)
  | _ => exact .other s (by simp [Section.id])

theorem walks_walk (out m : Module) : r.Walks s out m (r.walk s out m).1 (r.walk s out m).2 := by
  induction m generalizing s out with
  | nil => exact .finish rfl
  | cons sec rest ih => exact .step (.hookFirst rfl (r.encodes_encode _ sec)) (ih ..)

end Reencoder

def plainDriver (σ : Type) : Driver σ where
  parseCoreModule r s m := .ok (r.walk s [] m)
  walks r s m _ _ h := by
    have hwalk := r.walks_walk s [] m
    rwa [Except.ok.inj h] at hwalk

end TensorWasm.Wasm
