import Mathlib

/-!
# Core Wasm modules, as the rewriter sees them

A module is its list of sections in file order, which is the form both passes of the rewriter walk.
Operators the program never looks at are `other`, with their opcode and immediates; operators it
classifies, emits or renumbers have constructors of their own. Integers are the format's own
fixed-width ones: indices are `u32`, and an `i32` or `i64` constant is its bit pattern.
-/

namespace TensorWasm.Wasm

/-- The four number types. -/
inductive NumType where
  | i32 | i64 | f32 | f64
  deriving DecidableEq

/-- A value type; a reference type is identified by its heap type. -/
inductive ValType where
  | num (t : NumType)
  | v128
  | ref (heap : Nat)
  deriving DecidableEq

structure FuncType where
  params : List ValType
  results : List ValType
  deriving DecidableEq

structure MemArg where
  offset : UInt64
  align : UInt32
  memory : UInt32

inductive BlockType where
  | empty
  | value (t : ValType)
  | func (typeIndex : UInt32)

/-- The lane shapes of SIMD arithmetic. -/
inductive Shape where
  | f32x4 | i32x4 | f64x2 | i64x2 | i16x8 | i8x16

inductive Operator where
  | v128Load (m : MemArg)
  | v128Store (m : MemArg)
  | load (t : NumType) (m : MemArg)
  | store (t : NumType) (m : MemArg)
  | add (t : NumType)
  | mul (t : NumType)
  | simdAdd (s : Shape)
  | simdMul (s : Shape)
  | block (t : BlockType)
  | loop (t : BlockType)
  | if_ (t : BlockType)
  | else_
  | end_
  | br (depth : UInt32)
  | brIf (depth : UInt32)
  | brTable (targets : List UInt32) (default : UInt32)
  | unreachable
  | call (f : UInt32)
  | callIndirect (typeIndex table : UInt32)
  | returnCall (f : UInt32)
  | returnCallIndirect (typeIndex table : UInt32)
  | refFunc (f : UInt32)
  | localGet (i : UInt32)
  | localSet (i : UInt32)
  | localTee (i : UInt32)
  | i32Const (v : UInt32)
  | i64Const (v : UInt64)
  | i32Ne
  | other (opcode : Nat) (imms : List Nat)

/-- Rename the functions an operator refers to. -/
def Operator.mapFunc (f : UInt32 → UInt32) : Operator → Operator
  | .call i => .call (f i)
  | .returnCall i => .returnCall (f i)
  | .refFunc i => .refFunc (f i)
  | op => op

/-- A function body: its local declarations and its operators, the final `end` included. -/
structure FuncBody where
  locals : List (UInt32 × ValType)
  ops : List Operator

def FuncBody.mapFunc (f : UInt32 → UInt32) (b : FuncBody) : FuncBody :=
  { b with ops := b.ops.map (Operator.mapFunc f) }

/-- A constant expression. -/
abbrev ConstExpr := List Operator

/-- What an import provides; only functions carry an index this program reads. -/
inductive TypeRef where
  | func (typeIndex : UInt32)
  | table (desc : Nat)
  | memory (desc : Nat)
  | global (desc : Nat)
  | tag (typeIndex : UInt32)

structure Import where
  module : String
  name : String
  ty : TypeRef

def Import.isFunc (i : Import) : Bool :=
  match i.ty with
  | .func _ => true
  | _ => false

inductive ExternKind where
  | func | table | memory | global | tag

structure Export where
  name : String
  kind : ExternKind
  index : UInt32

def Export.mapFunc (f : UInt32 → UInt32) (e : Export) : Export :=
  match e.kind with
  | .func => { e with index := f e.index }
  | _ => e

/-- Where a segment goes: nowhere, or into a table or memory at an offset. -/
inductive SegmentMode where
  | passive
  | declared
  | active (target : UInt32) (offset : ConstExpr)

def SegmentMode.mapFunc (f : UInt32 → UInt32) : SegmentMode → SegmentMode
  | .active target offset => .active target (offset.map (Operator.mapFunc f))
  | mode => mode

inductive ElementItems where
  | functions (fs : List UInt32)
  | expressions (es : List ConstExpr)

def ElementItems.mapFunc (f : UInt32 → UInt32) : ElementItems → ElementItems
  | .functions fs => .functions (fs.map f)
  | .expressions es => .expressions (es.map (List.map (Operator.mapFunc f)))

structure Element where
  mode : SegmentMode
  items : ElementItems

def Element.mapFunc (f : UInt32 → UInt32) (e : Element) : Element :=
  { mode := e.mode.mapFunc f, items := e.items.mapFunc f }

/-- A global or a table with its optional initialiser. -/
structure Initialised where
  desc : Nat
  init : Option ConstExpr

def Initialised.mapFunc (f : UInt32 → UInt32) (g : Initialised) : Initialised :=
  { g with init := g.init.map (List.map (Operator.mapFunc f)) }

structure Data where
  mode : SegmentMode
  bytes : List UInt8

def Data.mapFunc (f : UInt32 → UInt32) (d : Data) : Data := { d with mode := d.mode.mapFunc f }

/-- One section. A type that is not a function type is `none`. -/
inductive Section where
  | custom (name : String) (bytes : List UInt8)
  | type (types : List (Option FuncType))
  | import (imports : List Import)
  | function (typeIndices : List UInt32)
  | table (tables : List Initialised)
  | memory (memories : List Nat)
  | tag (tags : List UInt32)
  | global (globals : List Initialised)
  | export (exports : List Export)
  | start (f : UInt32)
  | element (elements : List Element)
  | dataCount (n : UInt32)
  | code (bodies : List FuncBody)
  | data (segments : List Data)

/-- Rename the functions a section refers to. -/
def Section.mapFunc (f : UInt32 → UInt32) : Section → Section
  | .table ts => .table (ts.map (Initialised.mapFunc f))
  | .global gs => .global (gs.map (Initialised.mapFunc f))
  | .export es => .export (es.map (Export.mapFunc f))
  | .start i => .start (f i)
  | .element es => .element (es.map (Element.mapFunc f))
  | .code bs => .code (bs.map (FuncBody.mapFunc f))
  | .data ds => .data (ds.map (Data.mapFunc f))
  | sec => sec

inductive SectionId where
  | custom | type | import | function | table | memory | tag | global | export | start | element
  | dataCount | code | data
  deriving DecidableEq

def Section.id : Section → SectionId
  | .custom .. => .custom
  | .type _ => .type
  | .import _ => .import
  | .function _ => .function
  | .table _ => .table
  | .memory _ => .memory
  | .tag _ => .tag
  | .global _ => .global
  | .export _ => .export
  | .start _ => .start
  | .element _ => .element
  | .dataCount _ => .dataCount
  | .code _ => .code
  | .data _ => .data

/-- The position of a section in the canonical order; custom sections have none. -/
def SectionId.rank : SectionId → Nat
  | .custom => 0
  | .type => 1
  | .import => 2
  | .function => 3
  | .table => 4
  | .memory => 5
  | .tag => 6
  | .global => 7
  | .export => 8
  | .start => 9
  | .element => 10
  | .dataCount => 11
  | .code => 12
  | .data => 13

abbrev Module := List Section

/-! ## What a module contains -/

namespace Module

/-- The ids of the non-custom sections, in order. -/
def ids (m : Module) : List SectionId := (m.map Section.id).filter (· ≠ .custom)

/-- The canonical order: each non-custom section at most once, ranks increasing. -/
def Canonical (m : Module) : Prop :=
  m.ids.Pairwise fun a b => a.rank < b.rank

def types (m : Module) : List (Option FuncType) :=
  m.flatMap fun
    | .type ts => ts
    | _ => []

def imports (m : Module) : List Import :=
  m.flatMap fun
    | .import is => is
    | _ => []

def functions (m : Module) : List UInt32 :=
  m.flatMap fun
    | .function ts => ts
    | _ => []

def code (m : Module) : List FuncBody :=
  m.flatMap fun
    | .code bs => bs
    | _ => []

/-- Every section except types, imports, code and custom ones. -/
def others (m : Module) : Module := m.filter fun s => s.id ∉ [.custom, .type, .import, .code]

section Append

variable (m m' : Module)

@[simp] theorem ids_append : ids (m ++ m') = m.ids ++ m'.ids := by simp [ids]

@[simp] theorem others_append : others (m ++ m') = m.others ++ m'.others := by simp [others]

@[simp] theorem types_append : types (m ++ m') = m.types ++ m'.types := by simp [types]

@[simp] theorem imports_append : imports (m ++ m') = m.imports ++ m'.imports := by simp [imports]

@[simp] theorem functions_append : functions (m ++ m') = m.functions ++ m'.functions := by
  simp [functions]

@[simp] theorem code_append : code (m ++ m') = m.code ++ m'.code := by simp [code]

end Append

/-- The number of imported functions. -/
def numFunctionImports (m : Module) : Nat :=
  (m.imports.filter Import.isFunc).length

end Module

end TensorWasm.Wasm
