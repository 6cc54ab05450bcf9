/-
Trees with other columns. Two trees are the same up to their columns if they are equal once all columns are zero.
-/
import Z80Asm.Statement.Basic

namespace Z80Asm

mutual

/-- A node whose columns, and those of the nodes in it, are changed. -/
def Node.mapColumns (f : Nat → Nat) : Node → Node
  | .leaf l column => .leaf l (f column)
  | .address children column => .address (Node.mapAllColumns f children) (f column)

/-- Nodes that stand side by side, with their columns changed. -/
def Node.mapAllColumns (f : Nat → Nat) : List Node → List Node
  | [] => []
  | n :: more => Node.mapColumns f n :: Node.mapAllColumns f more

end

theorem Node.mapAllColumns_eq (f : Nat → Nat) (nodes : List Node) : mapAllColumns f nodes = nodes.map (mapColumns f) := by
  induction nodes with
  | nil => rw [mapAllColumns, List.map_nil]
  | cons n more ih => rw [mapAllColumns, List.map_cons, ih]

/-- A node without its columns. -/
def Node.unplaced (node : Node) : Node := node.mapColumns fun _ => 0

namespace Statement

/-- A statement whose columns are changed. -/
def mapColumns (f : Nat → Nat) (s : Statement) : Statement :=
  ⟨s.mnemonic, f s.column, s.operands.map (Node.mapColumns f)⟩

/-- A statement without its columns. -/
def unplaced (s : Statement) : Statement := s.mapColumns fun _ => 0

end Statement

/-! ## Nodes without columns -/

@[simp] theorem Node.unplaced_leaf (l : Leaf) (column : Nat) : (leaf l column).unplaced = .leaf l 0 := by
  rw [unplaced, mapColumns]

@[simp] theorem Node.unplaced_address (children : List Node) (column : Nat) :
    (address children column).unplaced = .address (children.map unplaced) 0 := by
  rw [unplaced, mapColumns, mapAllColumns_eq]
  rfl

theorem Statement.unplaced_mk (m : Mnemonic) (column : Nat) (nodes : List Node) :
    unplaced ⟨m, column, nodes⟩ = ⟨m, 0, nodes.map Node.unplaced⟩ := rfl

end Z80Asm
