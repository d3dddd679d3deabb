import Mathlib.Data.List.Nodup
import TensorWasm.Clif.LoweredIr

/-!
# Pliron functions

The part of pliron's IR the two dialect stages build: a function is a region of basic blocks, a block
holds its operations in order, and values are block arguments or results of operations. Operations are
told apart by their pointers. An operation that is created and never inserted belongs to no block, but
its results exist. Blocks are numbered by their place in the region.
-/

namespace TensorWasm.Pliron

open List
open Clif (LoweredType)

abbrev OpPtr := Nat
abbrev BlockPtr := Nat

/-- Signless integers, the two float types, and the pointer type of the LLVM dialect. -/
inductive PlironType
  | integer (bits : Nat)
  | fp32 | fp64
  | pointer
  deriving DecidableEq

/-- A value, with the type the context knows for it. -/
inductive Value
  | argument (block : BlockPtr) (idx : Nat) (ty : PlironType)
  | result (op : OpPtr) (idx : Nat) (ty : PlironType)
  deriving DecidableEq

def Value.type : Value → PlironType
  | argument _ _ ty | result _ _ ty => ty

/-- `builtin.string` attributes hold the decimal text of a number or the name of a type. -/
inductive StringAttr
  | number (n : Int)
  | typeName (ty : LoweredType)

/-- An operation of a dialect with the opcodes `κ`. -/
structure Operation (κ : Type) where
  ptr : OpPtr
  opcode : κ
  resultTypes : List PlironType
  operands : List Value
  successors : List BlockPtr
  attributes : List (String × StringAttr)

def Operation.results {κ : Type} (op : Operation κ) : List Value :=
  op.resultTypes.mapIdx fun idx ty => .result op.ptr idx ty

structure BasicBlock (κ : Type) where
  argTypes : List PlironType
  ops : List (Operation κ)

/-- The arguments of the block at place `k`. -/
def BasicBlock.arguments {κ : Type} (blk : BasicBlock κ) (k : BlockPtr) : List Value :=
  blk.argTypes.mapIdx fun idx ty => .argument k idx ty

/-- `builtin.func`, with the pointer the context gives the next operation. -/
structure FuncOp (κ : Type) where
  name : String
  params : List PlironType
  returns : List PlironType
  blocks : List (BasicBlock κ)
  next : OpPtr

namespace FuncOp

variable {κ : Type}

/-- `FuncOp::new` makes the entry block, with the parameters as arguments. -/
def new (name : String) (params returns : List PlironType) : FuncOp κ :=
  ⟨name, params, returns, [⟨params, []⟩], 0⟩

/-- A fresh block at the end of the region. -/
def newBlock (F : FuncOp κ) (argTypes : List PlironType) : FuncOp κ :=
  { F with blocks := F.blocks ++ [⟨argTypes, []⟩] }

/-- `Operation::new`: the operation is in no block yet. -/
def newOperation (F : FuncOp κ) (opcode : κ) (resultTypes : List PlironType) (operands : List Value)
    (successors : List BlockPtr) : Operation κ × FuncOp κ :=
  (⟨F.next, opcode, resultTypes, operands, successors, []⟩, { F with next := F.next + 1 })

def insertAtBack (F : FuncOp κ) (k : BlockPtr) (op : Operation κ) : FuncOp κ :=
  { F with blocks := F.blocks.modify k fun blk => { blk with ops := blk.ops ++ [op] } }

/-- The operations of all blocks. -/
def ops (F : FuncOp κ) : List (Operation κ) := F.blocks.flatMap (·.ops)

/-- The operations in blocks have different pointers, all given out before. -/
structure Distinct (F : FuncOp κ) : Prop where
  nodup : (F.ops.map (·.ptr)).Nodup
  below : ∀ op ∈ F.ops, op.ptr < F.next

theorem ops_insertAtBack (F : FuncOp κ) (k : BlockPtr) (op : Operation κ) :
    (F.insertAtBack k op).ops = F.ops ∨ (F.insertAtBack k op).ops.Perm (op :: F.ops) := by
  suffices h : ∀ (blocks : List (BasicBlock κ)) (k : Nat),
      (blocks.modify k fun blk => { blk with ops := blk.ops ++ [op] }).flatMap (·.ops) =
        blocks.flatMap (·.ops) ∨
      ((blocks.modify k fun blk => { blk with ops := blk.ops ++ [op] }).flatMap (·.ops)).Perm
        (op :: blocks.flatMap (·.ops)) from h F.blocks k
  intro blocks
  induction blocks with
  | nil => exact fun k => .inl (by simp)
  | cons blk blocks ih =>
    intro k
    cases k with
    | zero =>
      right
      simp only [modify_zero_cons, flatMap_cons, append_assoc, singleton_append]
      exact perm_middle
    | succ k =>
      simp only [modify_succ_cons, flatMap_cons]
      rcases ih k with heq | hperm
      · exact .inl (by rw [heq])
      · exact .inr ((hperm.append_left _).trans perm_middle)

/-- A new operation at the end of a block. -/
theorem Distinct.insert {F : FuncOp κ} (h : F.Distinct) {op : Operation κ} (hptr : op.ptr = F.next)
    (k : BlockPtr) : ({ F with next := F.next + 1 }.insertAtBack k op).Distinct := by
  rcases ops_insertAtBack { F with next := F.next + 1 } k op with heq | hperm
  · constructor
    · rw [heq]
      exact h.nodup
    · rw [heq]
      exact fun o ho => Nat.lt_succ_of_lt (h.below o ho)
  · constructor
    · rw [(hperm.map _).nodup_iff, map_cons, nodup_cons]
      refine ⟨fun hmem => ?_, h.nodup⟩
      obtain ⟨o, ho, hsame⟩ := mem_map.mp hmem
      have hlt := h.below o ho
      rw [hsame, hptr] at hlt
      exact Nat.lt_irrefl _ hlt
    · intro o ho
      rcases mem_cons.mp (hperm.mem_iff.mp ho) with rfl | hold
      · rw [hptr]
        exact Nat.lt_succ_self _
      · exact Nat.lt_succ_of_lt (h.below o hold)

theorem distinct_new (name : String) (params returns : List PlironType) :
    (new name params returns : FuncOp κ).Distinct where
  nodup := nodup_nil
  below _ hmem := nomatch hmem

theorem Distinct.newBlock {F : FuncOp κ} (h : F.Distinct) (argTypes : List PlironType) :
    (F.newBlock argTypes).Distinct := by
  have hops : (F.newBlock argTypes).ops = F.ops := by simp [ops, FuncOp.newBlock]
  constructor
  · rw [hops]
    exact h.nodup
  · rw [hops]
    exact h.below

end FuncOp

end TensorWasm.Pliron
