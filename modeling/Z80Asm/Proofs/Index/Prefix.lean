/-
`HL` under an index prefix. With an index register in place of `HL` and its halves in place of `H` and `L`, an
instruction has its bytes behind the prefix, and its warnings; except for a few that keep `HL` (`Mnemonic.KeepsHL`) and
with other registers are no instructions (`Encoder.z80_under`).
-/
import Z80Asm.Proofs.OpcodeMap.Page
import Z80Asm.Proofs.Table.Rejection

namespace Z80Asm

/-! ## Index registers for `HL` -/

/-- The high byte of an index register. -/
def IndexPair.high : IndexPair → IndexHalf
  | .IX => .IXH
  | .IY => .IYH

/-- The low byte of an index register. -/
def IndexPair.low : IndexPair → IndexHalf
  | .IX => .IXL
  | .IY => .IYL

/-- A word with an index register for `HL`. -/
def Word.under (p : IndexPair) : Word → Word
  | .normalPair .HL => .indexPair p
  | .register .H => .indexHalf p.high
  | .register .L => .indexHalf p.low
  | w => w

/-- A node with an index register for `HL`. In parentheses it stands for `HL` in jumps only, whose target it is. -/
def Node.under (m : Mnemonic) (p : IndexPair) : Node → Node
  | .leaf (.word w) column => .leaf (.word (w.under p)) column
  | .address [.leaf (.word (.normalPair .HL)) place] column =>
    .address [.leaf (.word (if m = .JP then .indexPair p else .normalPair .HL)) place] column
  | node => node

/-- A statement with an index register for `HL`. -/
def Statement.under (p : IndexPair) (s : Statement) : Statement :=
  { s with operands := s.operands.map (Node.under s.mnemonic p) }

/-- An operand with an index register for `HL`. -/
def Operand.under (m : Mnemonic) (p : IndexPair) : Operand → Operand
  | .normalPair .HL => .indexPair p
  | .register .H => .indexHalf p.high
  | .register .L => .indexHalf p.low
  | .address ⟨.normalPair .HL, none⟩ => if m = .JP then .indexed p none else .hl
  | x => x

/-- The instructions on `HL`, `H` or `L` that are none on an index register or its halves. -/
inductive Mnemonic.KeepsHL : Mnemonic → List Operand → Prop
  | exchange : KeepsHL .EX [.normalPair .DE, .normalPair .HL]
  | adc (q : NormalPair) : KeepsHL .ADC [.normalPair .HL, .normalPair q]
  | sbc (q : NormalPair) : KeepsHL .SBC [.normalPair .HL, .normalPair q]
  | bit {m : Mnemonic} (page : m ∈ ofBits) (xs : List Operand) : KeepsHL m xs
  | input (xs : List Operand) : KeepsHL .IN xs
  | output (xs : List Operand) : KeepsHL .OUT xs
  | load {r : Register} {x : Operand} (half : r = .H ∨ r = .L) (memory : x = .hl ∨ ∃ i d, x = .indexed i d) :
    KeepsHL .LD [.register r, x]
  | store {r : Register} {x : Operand} (half : r = .H ∨ r = .L) (memory : x = .hl ∨ ∃ i d, x = .indexed i d) :
    KeepsHL .LD [x, .register r]

/-! ## The table -/

theorem IndexHalf.replaces_eq (k : IndexHalf) : k.replaces = .H ∨ k.replaces = .L := by
  cases k with
  | IXH | IYH => exact .inl rfl
  | IXL | IYL => exact .inr rfl

/-- A register stays, or it is the one that a half of the index register stands in for. -/
theorem Operand.under_register (m : Mnemonic) (p : IndexPair) (r : Register) :
    (under m p (.register r) = .register r ∧ r ≠ .H ∧ r ≠ .L) ∨
      ∃ k, under m p (.register r) = .indexHalf k ∧ k.pair = p ∧ k.replaces = r := by
  cases r with
  | H => exact .inr ⟨p.high, rfl, by cases p <;> exact ⟨rfl, rfl⟩⟩
  | L => exact .inr ⟨p.low, rfl, by cases p <;> exact ⟨rfl, rfl⟩⟩
  | _ => exact .inl ⟨rfl, by decide⟩

theorem Operand.map_under_pair {m : Mnemonic} {p : IndexPair} {x y : Operand} (hx : x.under m p = x) (hy : y.under m p = y) :
    [x, y].map (under m p) = [x, y] := by
  rw [List.map_cons, List.map_singleton, hx, hy]

section

variable {p : IndexPair} {xs : List Operand} {e : Encoding}

/-- What a row becomes with an index register for `HL`. -/
inductive Row.Under (m : Mnemonic) (p : IndexPair) (xs : List Operand) (e : Encoding) : Prop
  | kept (keeps : m.KeepsHL xs)
  | prefixed (plain : e.index = none) (row : Row m (xs.map (Operand.under m p)) (e.indexedBy (some p)))

/-- A move between registers of which one at least is replaced. -/
theorem Load.Row.under_registers (r s : Register)
    (changed : [.register r, .register s].map (Operand.under .LD p) ≠ [.register r, .register s]) :
    Row ([.register r, .register s].map (Operand.under .LD p))
      ((Encoding.main (0x40 + 8 * Vocabulary.code r + Vocabulary.code s)).indexedBy (some p)) := by
  rcases Operand.under_register .LD p r with ⟨hr, plain⟩ | ⟨k, hr, rfl, rfl⟩
  · rcases Operand.under_register .LD p s with ⟨hs, -⟩ | ⟨l, hs, rfl, rfl⟩
    · exact absurd (Operand.map_under_pair hr hs) changed
    · rw [List.map_cons, List.map_singleton, hr, hs]
      exact .fromHalf r l plain
  · rw [List.map_cons, List.map_singleton, hr]
    rcases Operand.under_register .LD k.pair s with ⟨hs, plain⟩ | ⟨l, hs, same, rfl⟩
    · rw [hs]
      exact .toHalf k s plain
    · rw [hs]
      exact .half k l same.symm

theorem Load.Row.under (h : Row xs e) (changed : xs.map (Operand.under .LD p) ≠ xs) : Row.Under .LD p xs e := by
  cases h with
  | register r s => exact .prefixed rfl (.load (under_registers r s changed))
  | number r n fits =>
    rcases Operand.under_register .LD p r with ⟨hr, -⟩ | ⟨k, hr, rfl, rfl⟩
    · exact absurd (Operand.map_under_pair hr rfl) changed
    · refine .prefixed rfl (.load ?_)
      rw [List.map_cons, hr]
      exact .numberToHalf k n
  | fromHL r =>
    rcases Operand.under_register .LD p r with ⟨hr, -⟩ | ⟨k, -, -, rfl⟩
    · exact absurd (Operand.map_under_pair hr rfl) changed
    · exact .kept (.load k.replaces_eq (.inl rfl))
  | fromIndexed r i d =>
    rcases Operand.under_register .LD p r with ⟨hr, -⟩ | ⟨k, -, -, rfl⟩
    · exact absurd (Operand.map_under_pair hr rfl) changed
    · exact .kept (.load k.replaces_eq (.inr ⟨i, d, rfl⟩))
  | toHL r =>
    rcases Operand.under_register .LD p r with ⟨hr, -⟩ | ⟨k, -, -, rfl⟩
    · exact absurd (Operand.map_under_pair rfl hr) changed
    · exact .kept (.store k.replaces_eq (.inl rfl))
  | toIndexed i d r =>
    rcases Operand.under_register .LD p r with ⟨hr, -⟩ | ⟨k, -, -, rfl⟩
    · exact absurd (Operand.map_under_pair rfl hr) changed
    · exact .kept (.store k.replaces_eq (.inr ⟨i, d, rfl⟩))
  | fromHalf r k plain =>
    rcases Operand.under_register .LD p r with ⟨hr, -⟩ | ⟨l, -, -, rfl⟩
    · exact absurd (Operand.map_under_pair hr rfl) changed
    · exact absurd l.replaces_eq (not_or.2 plain)
  | toHalf k r plain =>
    rcases Operand.under_register .LD p r with ⟨hr, -⟩ | ⟨l, -, -, rfl⟩
    · exact absurd (Operand.map_under_pair rfl hr) changed
    · exact absurd l.replaces_eq (not_or.2 plain)
  | fromPointer q wide => rcases wide with rfl | rfl <;> exact absurd rfl changed
  | toPointer q wide => rcases wide with rfl | rfl <;> exact absurd rfl changed
  | pairNumber q nn =>
    cases q with
    | HL => exact .prefixed rfl (.load (.indexNumber p nn))
    | _ => exact absurd rfl changed
  | hlFromNumeric nn d => exact .prefixed rfl (.load (.indexFromNumeric p nn d))
  | hlToNumeric nn d => exact .prefixed rfl (.load (.indexToNumeric p nn d))
  | pairFromNumeric q nn d long =>
    cases q with
    | HL => exact absurd rfl long
    | _ => exact absurd rfl changed
  | pairToNumeric q nn d long =>
    cases q with
    | HL => exact absurd rfl long
    | _ => exact absurd rfl changed
  | stackPointer => exact .prefixed rfl (.load (.stackPointerIndex p))
  | _ => exact absurd rfl changed

theorem Alu.Source.under {op : Alu} {operand : Nat} {x : Operand} (h : Source op operand x e)
    (changed : x.under op.mnemonic p ≠ x) :
    e.index = none ∧ Source op operand (x.under op.mnemonic p) (e.indexedBy (some p)) := by
  cases h with
  | register r =>
    rcases Operand.under_register op.mnemonic p r with ⟨same, -⟩ | ⟨k, half, rfl, rfl⟩
    · exact absurd same changed
    · rw [half]
      exact ⟨rfl, .half k⟩
  | hl => cases op <;> exact absurd rfl changed
  | _ => exact absurd rfl changed

theorem Alu.Row.under {op : Alu} (h : Row op xs e) (changed : xs.map (Operand.under op.mnemonic p) ≠ xs) :
    Row.Under op.mnemonic p xs e := by
  cases h with
  | short implicit source =>
    obtain ⟨plain, source⟩ := source.under fun same => changed (congrArg (fun x => [x]) same)
    exact .prefixed plain (.alu op (.short implicit source))
  | long source =>
    obtain ⟨plain, source⟩ := source.under fun same => changed (Operand.map_under_pair rfl same)
    exact .prefixed plain (.alu op (.long source))
  | addPair q =>
    cases q with
    | HL => exact .prefixed rfl (.alu .ADD (.addSelf p))
    | _ => exact .prefixed rfl (.alu .ADD (.addToIndex p _ (by decide)))
  | addToIndex i q other =>
    cases q with
    | HL => exact absurd rfl other
    | _ => exact absurd rfl changed
  | addSelf i => exact absurd rfl changed
  | adcPair q => exact .kept (.adc q)
  | sbcPair q => exact .kept (.sbc q)

theorem Step.Row.under {s : Step} (h : Row s xs e) (changed : xs.map (Operand.under s.mnemonic p) ≠ xs) :
    Row.Under s.mnemonic p xs e := by
  cases h with
  | register r =>
    rcases Operand.under_register s.mnemonic p r with ⟨same, -⟩ | ⟨k, half, rfl, rfl⟩
    · exact absurd (congrArg (fun x => [x]) same) changed
    · refine .prefixed rfl (.step s ?_)
      rw [List.map_singleton, half]
      exact .half k
  | hl => cases s <;> exact absurd rfl changed
  | pair q =>
    cases q with
    | HL => exact .prefixed rfl (.step s (by cases s <;> exact .index p))
    | _ => exact absurd rfl changed
  | _ => exact absurd rfl changed

theorem Branch.Slot.under {x : Operand} {c : Condition} (h : Slot x c) (m : Mnemonic) : x.under m p = x := by
  cases h <;> rfl

theorem Branch.Absolute.under {always onCondition : UInt8} (h : Absolute always onCondition xs e) (m : Mnemonic) :
    xs.map (Operand.under m p) = xs := by
  cases h with
  | always nn => rfl
  | conditional slot nn => exact congrArg (fun x => [x, _]) (slot.under m)

theorem Stack.Transferred.under {opcode : UInt8} {m : Mnemonic} (h : Transferred opcode xs e)
    (changed : xs.map (Operand.under m p) ≠ xs) :
    e.index = none ∧ Transferred opcode (xs.map (Operand.under m p)) (e.indexedBy (some p)) := by
  cases h with
  | pair q saved =>
    cases q with
    | HL => exact ⟨rfl, .index p⟩
    | _ => exact absurd rfl changed
  | _ => exact absurd rfl changed

/-- A row that is changed becomes a row under the prefix, or it is one of those that keep `HL`. -/
theorem Row.under {m : Mnemonic} (h : Row m xs e) (changed : xs.map (Operand.under m p) ≠ xs) : Under m p xs e := by
  cases h with
  | load row => exact row.under changed
  | alu op row => exact row.under changed
  | step s row => exact row.under changed
  | rotation r row => exact .kept (.bit (by cases r <;> decide) xs)
  | bit b row => exact .kept (.bit (by cases b <;> decide) xs)
  | jump row =>
    cases row with
    | absolute row => exact absurd (row.under .JP) changed
    | hl => exact .prefixed rfl (.jump (.index p))
    | index i => exact absurd rfl changed
  | relative row =>
    cases row with
    | always d => exact absurd rfl changed
    | conditional slot flag d => exact absurd (congrArg (fun x => [x, _]) (slot.under .JR)) changed
  | call row => exact absurd (row.under .CALL) changed
  | ret row =>
    cases row with
    | always => exact absurd rfl changed
    | conditional slot => exact absurd (congrArg (fun x => [x]) (slot.under .RET)) changed
  | push row =>
    obtain ⟨plain, row⟩ := row.under changed
    exact .prefixed plain (.push row)
  | pop row =>
    obtain ⟨plain, row⟩ := row.under changed
    exact .prefixed plain (.pop row)
  | exchange row =>
    cases row with
    | pairs => exact .kept .exchange
    | top => exact .prefixed rfl (.exchange (.topIndex p))
    | _ => exact absurd rfl changed
  | input row => exact .kept (.input xs)
  | output row => exact .kept (.output xs)
  | implied opcode => exact absurd rfl changed
  | _ row => cases row <;> exact absurd rfl changed

/-! ## Instructions that keep `HL` -/

/-- The bit page has no instructions on halves of index registers. -/
theorem BitPage.Target.onTarget?_under {opcode : UInt8} {first : Nat} {m : Mnemonic} (h : Target opcode first xs e)
    (hm : m ≠ .JP) (changed : xs.map (Operand.under m p) ≠ xs) :
    onTarget? opcode first (xs.map (Operand.under m p)) = none := by
  cases h with
  | register r =>
    rcases Operand.under_register m p r with ⟨same, -⟩ | ⟨k, half, -, -⟩
    · exact absurd (congrArg (fun x => [x]) same) changed
    · rw [List.map_singleton, half]
      rfl
  | hl => exact absurd (congrArg (fun x => [x]) (if_neg hm)) changed
  | indexed i d => exact absurd rfl changed
  | copy i d r =>
    rcases Operand.under_register m p r with ⟨same, -⟩ | ⟨k, half, -, -⟩
    · exact absurd (Operand.map_under_pair rfl same) changed
    · rw [List.map_cons, List.map_singleton, half]
      rfl

theorem Row.encode_under_of_ofBits {m : Mnemonic} (h : Row m xs e) (page : m ∈ Mnemonic.ofBits)
    (changed : xs.map (Operand.under m p) ≠ xs) : m.encode (xs.map (Operand.under m p)) = .error .illegalOperands := by
  cases h with
  | rotation r row =>
    have none := row.onTarget?_under (by cases r <;> decide) changed
    cases r <;> exact congrArg Fault.orIllegal none
  | bit b row =>
    -- the index of the bit comes first and is checked before the target
    obtain @⟨n, target, _, index, row⟩ := row
    have targets : target.map (Operand.under b.mnemonic p) ≠ target :=
      fun same => changed (by rw [List.map_cons, same]; rfl)
    have none := row.onTarget?_under (by cases b <;> decide) targets
    have rejected : b.encode (.immediate n :: target.map (Operand.under b.mnemonic p)) = .error .illegalOperands := by
      rw [BitAccess.encode, if_pos (BitAccess.mem_indices_iff.1 index), none]
      rfl
    cases b <;> exact rejected
  | alu op row => cases op <;> exact absurd page (by decide)
  | step s row => cases s <;> exact absurd page (by decide)
  | implied opcode => exact absurd rfl changed
  | _ => exact absurd page (by decide)

theorem Row.encode_under_of_keepsHL {m : Mnemonic} (h : Row m xs e) (keeps : m.KeepsHL xs)
    (changed : xs.map (Operand.under m p) ≠ xs) : m.encode (xs.map (Operand.under m p)) = .error .illegalOperands := by
  cases keeps with
  | exchange => cases p <;> rfl
  | adc q => cases q <;> rfl
  | sbc q => cases q <;> rfl
  | bit page => exact h.encode_under_of_ofBits page changed
  | input =>
    have row := Port.input?_eq_some_iff.1 (Fault.orIllegal_eq_ok.1 (Mnemonic.encode_of_row h))
    cases row with
    | register r =>
      rcases Operand.under_register .IN p r with ⟨same, -⟩ | ⟨k, half, -, -⟩
      · exact absurd (Operand.map_under_pair same rfl) changed
      · rw [List.map_cons, half]
        rfl
    | _ => exact absurd rfl changed
  | output =>
    have row := Port.output?_eq_some_iff.1 (Fault.orIllegal_eq_ok.1 (Mnemonic.encode_of_row h))
    cases row with
    | register r =>
      rcases Operand.under_register .OUT p r with ⟨same, -⟩ | ⟨k, half, -, -⟩
      · exact absurd (Operand.map_under_pair rfl same) changed
      · rw [List.map_cons, List.map_singleton, half]
        rfl
    | _ => exact absurd rfl changed
  | load half memory => rcases half with rfl | rfl <;> rcases memory with rfl | ⟨i, d, rfl⟩ <;> rfl
  | store half memory => rcases half with rfl | rfl <;> rcases memory with rfl | ⟨i, d, rfl⟩ <;> rfl

end

/-! ## Nodes -/

theorem Node.column_under (m : Mnemonic) (p : IndexPair) (node : Node) : (node.under m p).column = node.column := by
  unfold under
  split <;> rfl

/-- Only a pair that stands alone in parentheses is an address on it without a displacement. -/
theorem Address.eq_pair_of_ofNodes? {children : List Node} {q : NormalPair}
    (h : ofNodes? children = some ⟨.normalPair q, none⟩) : ∃ place, children = [.leaf (.word (.normalPair q)) place] := by
  unfold ofNodes? at h
  split at h
  · rename_i l place
    obtain ⟨base, hb, hx⟩ := Option.map_eq_some_iff.1 h
    cases hx
    exact ⟨place, by rw [← Base.leaf_of_ofLeaf? hb]; rfl⟩
  · split at h <;> cases h
  · cases h

theorem Node.under_address {m : Mnemonic} {p : IndexPair} {children : List Node} {column : Nat}
    (h : ∀ place, children ≠ [.leaf (.word (.normalPair .HL)) place]) :
    under m p (.address children column) = .address children column := by
  unfold under
  split
  · rename_i eq
    cases eq
  · rename_i place _ eq
    cases eq
    exact absurd rfl (h place)
  · rfl

namespace Operand

/-- A node and its operand are replaced together. -/
theorem ofNode_under {m : Mnemonic} (p : IndexPair) {node : Node} {x : Operand} (h : ofNode node = .ok x) :
    ofNode (node.under m p) = .ok (x.under m p) ∧ (x.under m p = x → node.under m p = node) := by
  cases node with
  | leaf l column =>
    cases l with
    | word w =>
      cases w with
      | register r => cases h; cases r <;> exact ⟨rfl, fun same => by cases same <;> rfl⟩
      | normalPair q => cases h; cases q <;> exact ⟨rfl, fun same => by cases same <;> rfl⟩
      | _ => cases h; exact ⟨rfl, fun _ => rfl⟩
    | immediate n => cases h; exact ⟨rfl, fun _ => rfl⟩
    | _ => cases h
  | address children column =>
    rw [ofNode] at h
    split at h <;> cases h
    rename_i a ha
    -- no address is replaced but the bare pair, and that one in jumps alone
    by_cases bare : a = ⟨.normalPair .HL, none⟩
    · subst bare
      obtain ⟨place, rfl⟩ := Address.eq_pair_of_ofNodes? ha
      by_cases jump : m = .JP
      · simp [Node.under, under, jump, ofNode, Address.ofNodes?, Base.ofLeaf?]
      · simp [Node.under, under, jump, ofNode, Address.ofNodes?, Base.ofLeaf?]
    · have children : Node.under m p (.address children column) = .address children column :=
        Node.under_address fun place eq => bare (by subst eq; cases ha; rfl)
      have operand : under m p (.address a) = .address a := by
        rw [under] <;> simp_all
      rw [children, operand, ofNode, ha]
      exact ⟨rfl, fun _ => rfl⟩

theorem ofNodes_under {m : Mnemonic} (p : IndexPair) {nodes : List Node} {xs : List Operand} (h : ofNodes nodes = .ok xs) :
    ofNodes (nodes.map (Node.under m p)) = .ok (xs.map (under m p)) ∧
      (xs.map (under m p) = xs → nodes.map (Node.under m p) = nodes) := by
  replace h := ofNodes_eq_ok_iff.1 h
  induction h with
  | nil => exact ⟨rfl, fun _ => rfl⟩
  | cons hx _ ih =>
    obtain ⟨hx, same⟩ := ofNode_under (m := m) p hx
    refine ⟨?_, fun all => ?_⟩
    · rw [List.map_cons, ofNodes, hx]
      simp only [ih.1, List.map_cons]
    · rw [List.map_cons, List.cons.injEq] at all
      rw [List.map_cons, same all.1, ih.2 all.2]

end Operand

/-! ## Statements -/

namespace Statement

theorem columnOf_under (p : IndexPair) (s : Statement) (operand : Nat) : (s.under p).columnOf operand = s.columnOf operand := by
  simp only [columnOf, under, List.getElem?_map]
  cases s.operands[operand]? with
  | none => rfl
  | some node => exact Node.column_under s.mnemonic p node

theorem overflows_under (p : IndexPair) (s : Statement) (e : Encoding) :
    (s.under p).overflows (e.indexedBy (some p)) = s.overflows e := by
  have columns : (s.under p).columnOf = s.columnOf := funext (s.columnOf_under p)
  rw [overflows, overflows, columns]
  rfl

end Statement

theorem Encoding.bytes_indexedBy {e : Encoding} (plain : e.index = none) (p : IndexPair) :
    (e.indexedBy (some p)).bytes = p.prefixByte :: e.bytes := by
  obtain ⟨index, page, opcode, displacement, data⟩ := e
  obtain rfl : index = none := plain
  cases page <;> rfl

/-! ## The encoder -/

theorem Statement.encoding_under {s : Statement} {p : IndexPair} {xs : List Operand} {e : Encoding}
    (hxs : Operand.ofNodes s.operands = .ok xs) (row : Row s.mnemonic xs e) (changed : s.under p ≠ s) :
    (s.mnemonic.KeepsHL xs → (s.under p).encoding = .error ⟨s.mnemonic, .illegalOperands, s.column⟩) ∧
    (¬s.mnemonic.KeepsHL xs → e.index = none ∧ (s.under p).encoding = .ok (e.indexedBy (some p))) := by
  obtain ⟨replaced, same⟩ := Operand.ofNodes_under (m := s.mnemonic) p hxs
  have operands : xs.map (Operand.under s.mnemonic p) ≠ xs := fun eq => changed (by rw [Statement.under, same eq])
  constructor
  · intro keeps
    exact Statement.encoding_of_fault replaced (row.encode_under_of_keepsHL keeps operands)
  · intro other
    cases row.under operands with
    | kept keeps => exact absurd keeps other
    | prefixed plain row => exact ⟨plain, Statement.encoding_eq_ok_iff.2 ⟨_, replaced, row⟩⟩

/-- An encoded statement with an index register for `HL`, where that changes it: it is encoded, unless it keeps `HL`, to
the same bytes behind the prefix and with the same reports. Words of which some exclude each other are never encoded. -/
theorem Encoder.z80_under (line : Nat) (out : Output) :
    (∀ (s : Statement) (p : IndexPair) (out' : Output), z80 line s out = (.ok (), out') → s.under p ≠ s →
      ∃ xs, Operand.ofNodes s.operands = .ok xs ∧
        (s.mnemonic.KeepsHL xs →
          z80 line (s.under p) out = (.error ⟨s.mnemonic, .illegalOperands, s.column⟩, out.clear)) ∧
        (¬s.mnemonic.KeepsHL xs →
          z80 line (s.under p) out = (.ok (), ⟨p.prefixByte :: out'.bytes, out'.reports⟩))) ∧
    ∀ s : Statement, Word.Mixed s.words → ∃ e, z80 line s out = (.error e, out.clear) := by
  refine ⟨?_, fun s mixed => z80_of_mixed mixed⟩
  intro s p out' h changed
  obtain ⟨e, he, rfl⟩ := encoding_of_z80 h
  obtain ⟨xs, hxs, row⟩ := Statement.encoding_eq_ok_iff.1 he
  obtain ⟨kept, prefixed⟩ := Statement.encoding_under hxs row changed
  refine ⟨xs, hxs, fun keeps => z80_of_error (kept keeps), fun other => ?_⟩
  obtain ⟨plain, he⟩ := prefixed other
  rw [z80_of_encoding he, Encoding.bytes_indexedBy plain, Statement.overflows_under]

/-- `ADD HL,HL`. -/
def Statement.doubleHL : Statement := ⟨.ADD, 0, [(Operand.normalPair .HL).node, (Operand.normalPair .HL).node]⟩

/-- `EX DE,HL`. -/
def Statement.exchangeHL : Statement := ⟨.EX, 0, [(Operand.normalPair .DE).node, (Operand.normalPair .HL).node]⟩

/-- `LD H,IXL`. -/
def Statement.loadMixed : Statement := ⟨.LD, 0, [(Operand.register .H).node, (Operand.indexHalf .IXL).node]⟩

/-- `ADD IX,IX` is encoded as `ADD HL,HL` is, `EX DE,IY` is not encoded as `EX DE,HL` is, and `LD H,IXL` is not encoded. -/
theorem Encoder.z80_under_pairs :
    z80 1 (Statement.doubleHL.under .IX) .empty = (.ok (), ⟨[0xDD, 0x29], []⟩) ∧
    z80 1 (Statement.exchangeHL.under .IY) .empty = (.error ⟨.EX, .illegalOperands, 0⟩, .empty) ∧
    ∃ e, z80 1 .loadMixed .empty = (.error e, .empty) := by
  obtain ⟨replaced, mixed⟩ := z80_under 1 .empty
  refine ⟨?_, ?_, mixed .loadMixed (.half (.inl rfl) .IXL (by decide) (by decide))⟩
  · obtain ⟨xs, hxs, -, prefixed⟩ := replaced .doubleHL .IX _ rfl nofun
    cases hxs
    exact prefixed fun keeps => by cases keeps with | bit page => exact absurd page (by decide)
  · obtain ⟨xs, hxs, kept, -⟩ := replaced .exchangeHL .IY _ rfl nofun
    cases hxs
    exact kept .exchange

end Z80Asm
