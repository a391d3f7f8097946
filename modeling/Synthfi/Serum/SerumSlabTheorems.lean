/-
Synthfi.Serum.SerumSlabTheorems — what a slab decodes to, and when it does.

`cells` forgets everything of a slab but the links between its nodes. A slab
that stores a crit-bit tree decodes to the leaves of the tree in the order of
their keys. For any other slab the links decide: every node below the root
has to be there, and none may lie below itself.
-/
import Synthfi.Lib.LinkedTree
import Synthfi.Serum.SerumSlab

namespace Synthfi.Serum

open Bytes Solana Trading LinkedTree

/-! ## The links of a slab -/

def SerumNode.toCell : SerumNode → Cell SerumNodeIndex SerumLeafNode
  | inner prefixLength left right => .inner prefixLength.toNat left right
  | leaf node => .leaf node
  | free => .free

def cells (slab : List UInt8) (index : SerumNodeIndex) :
    Option (Cell SerumNodeIndex SerumLeafNode) :=
  (getNode slab index).map SerumNode.toCell

variable {slab : List UInt8}

theorem cells_eq_none_iff {index : SerumNodeIndex} :
    cells slab index = none ↔ getNode slab index = none := Option.map_eq_none_iff

theorem cells_eq_some_leaf {index : SerumNodeIndex} {node : SerumLeafNode} :
    cells slab index = some (.leaf node) ↔ getNode slab index = some (.leaf node) := by
  rcases hnode : getNode slab index with _ | _ | _ | _ <;> simp [cells, hnode, SerumNode.toCell]

/-- The loop appends the leaves it finds, as long as the vector can grow. -/
theorem getLeafNodesFrom_eq (fuel : ℕ) (nodes : List SerumLeafNode) (index : SerumNodeIndex)
    (hnodes : nodes.length ≤ maxLeafNodes) :
    getLeafNodesFrom slab fuel nodes index =
      (leavesFrom (cells slab) fuel index).bind fun leaves =>
        if (nodes ++ leaves).length ≤ maxLeafNodes then some (nodes ++ leaves) else none := by
  induction fuel generalizing nodes index with
  | zero => rfl
  | succ fuel ih =>
    rcases hnode : getNode slab index with _ | node
    · simp [getLeafNodesFrom, leavesFrom, cells, hnode]
    cases node with
    | inner prefixLength left right =>
      simp only [getLeafNodesFrom, hnode, leavesFrom, cells, Option.map_some, SerumNode.toCell]
      rw [ih nodes left hnodes]
      rcases leavesFrom (cells slab) fuel left with _ | leaves
      · rfl
      simp only [Option.bind_some, Option.bind_map]
      by_cases hroom : (nodes ++ leaves).length ≤ maxLeafNodes
      · rw [if_pos hroom, Option.bind_some, ih (nodes ++ leaves) right hroom]
        simp only [List.append_assoc, Function.comp_def]
      · -- a vector that is full on the left has no room on the right
        have hfull : ∀ more, ¬ (nodes ++ (leaves ++ more)).length ≤ maxLeafNodes := by
          intro more
          simp only [List.length_append] at hroom ⊢
          omega
        rw [if_neg hroom, Option.bind_none]
        simp only [Function.comp_def, hfull, if_false, Option.bind_fun_none]
    | leaf node =>
      simp only [getLeafNodesFrom, hnode, leavesFrom, cells, Option.map_some, SerumNode.toCell,
        Option.bind_some, List.length_append, List.length_singleton, Nat.add_one_le_iff]
    | free =>
      simp [getLeafNodesFrom, hnode, leavesFrom, cells, SerumNode.toCell, hnodes]

theorem getLeafNodes_eq_some {fuel : ℕ} {nodes : List SerumLeafNode} :
    getLeafNodes slab fuel = some nodes ↔
      leavesFrom (cells slab) fuel (rootNode slab) = some nodes ∧
        nodes.length ≤ maxLeafNodes := by
  rw [getLeafNodes, getLeafNodesFrom_eq fuel [] (rootNode slab) (Nat.zero_le _)]
  simp only [List.nil_append, Option.bind_eq_some_iff, Option.ite_none_right_eq_some,
    Option.some.injEq]
  constructor
  · intro h
    obtain ⟨leaves, hleaves, hroom, heq⟩ := h
    rw [← heq]
    exact ⟨hleaves, hroom⟩
  · intro h
    obtain ⟨hleaves, hroom⟩ := h
    exact ⟨nodes, hleaves, hroom, rfl⟩

/-! ## Crit-bit trees -/

/-- The 128-bit number a key stands for: the price in front of the sequence
number. -/
def SerumNodeKey.toNat (key : SerumNodeKey) : ℕ :=
  key.limitPrice.toNat * 2 ^ 64 + key.sequenceNumber.toNat

/-- The nodes from the root on store the tree, which is a crit-bit tree with
as many leaves as the header says. -/
structure StoresCritBit (slab : List UInt8) (tree : Tree SerumNodeIndex SerumLeafNode) : Prop where
  root : tree.index = rootNode slab
  stored : tree.Stored (cells slab)
  critBit : tree.CritBit (fun node => node.key.toNat) 128
  leafCount : tree.leaves.length = (leafCount slab).toNat

namespace StoresCritBit

variable {tree : Tree SerumNodeIndex SerumLeafNode}

/-- There are no more leaves than indices. -/
theorem length_le (h : StoresCritBit slab tree) : tree.leaves.length ≤ maxLeafNodes := by
  have hnodup := (h.critBit.nodup h.stored).map fun _ _ => UInt32.toFin_inj.mp
  have hcard := hnodup.length_le_card
  rw [List.length_map, List.length_map, Fintype.card_fin] at hcard
  exact hcard.trans (by decide)

end StoresCritBit

/-- A slab that stores a crit-bit tree decodes to its leaves: every leaf node
below the root once, as many as the header says, in the order of their
keys. -/
theorem getLeafNodes_critBit (slab : List UInt8) (tree : Tree SerumNodeIndex SerumLeafNode)
    (h : StoresCritBit slab tree) :
    ∃ leaves : List (SerumNodeIndex × SerumLeafNode),
      (∃ depth, ∀ fuel > depth, getLeafNodes slab fuel = some (leaves.map Prod.snd)) ∧
      (leaves.map Prod.fst).Nodup ∧
      (∀ index node, (index, node) ∈ leaves ↔
        Below (cells slab) (rootNode slab) index ∧ getNode slab index = some (.leaf node)) ∧
      leaves.length = (leafCount slab).toNat ∧
      leaves.Pairwise fun a b => a.2.key.toNat < b.2.key.toNat := by
  have hleaf : ∀ index node, cells slab index = some (.leaf node) ↔
      getNode slab index = some (.leaf node) := fun index node => cells_eq_some_leaf
  refine ⟨tree.leaves, ⟨tree.height, ?_⟩, h.critBit.nodup h.stored, ?_, h.leafCount,
    h.critBit.pairwise⟩
  · intro fuel hfuel
    have hleaves := Tree.leavesFrom_of_stored h.stored hfuel
    rw [h.root] at hleaves
    exact getLeafNodes_eq_some.mpr ⟨hleaves, by simpa using h.length_le⟩
  · intro index node
    rw [← hleaf, ← h.root]
    constructor
    · intro hmem
      exact ⟨Tree.below_of_mem_leaves h.stored hmem, Tree.stored_leaf h.stored hmem⟩
    · intro h
      obtain ⟨hbelow, hnode⟩ := h
      exact Tree.mem_leaves_of_below h.stored hbelow hnode

/-- Two asks at 100 and 101, the lower one in the last node. -/
def twoOrders : List UInt8 :=
  sparse 256 [(32, [2]), (40, [1]), (44, [63]), (64, [2]), (68, [1]), (112, [2]), (120, [9]),
    (128, [101]), (184, [2]), (192, [7]), (200, [100])]

def twoOrdersTree : Tree SerumNodeIndex SerumLeafNode :=
  .inner 0 63 (.leaf 2 (readLeafNode twoOrders 184)) (.leaf 1 (readLeafNode twoOrders 112))

theorem getLeafNodes_twoOrders :
    ∃ depth leaves, (∀ fuel > depth, getLeafNodes twoOrders fuel = some leaves) ∧
      leaves.length = 2 ∧ leaves.Pairwise fun a b => a.key.toNat < b.key.toNat := by
  have hroot : getNode twoOrders 0 = some (.inner 63 2 1) := by decide +kernel
  have hleft : getNode twoOrders 2 = some (.leaf (readLeafNode twoOrders 184)) := by
    decide +kernel
  have hright : getNode twoOrders 1 = some (.leaf (readLeafNode twoOrders 112)) := by
    decide +kernel
  have hcount : (leafCount twoOrders).toNat = 2 := by decide +kernel
  obtain ⟨leaves, ⟨depth, hdepth⟩, -, -, hlength, hsorted⟩ :=
    getLeafNodes_critBit twoOrders twoOrdersTree
      { root := by decide +kernel
        stored :=
          ⟨congrArg (Option.map SerumNode.toCell) hroot,
            congrArg (Option.map SerumNode.toCell) hleft,
            congrArg (Option.map SerumNode.toCell) hright⟩
        critBit :=
          ⟨by decide, by decide +kernel, by decide +kernel, by decide +kernel, trivial, trivial⟩
        leafCount := by decide +kernel }
  exact ⟨depth, _, hdepth, by rw [List.length_map, hlength, hcount],
    List.pairwise_map.mpr hsorted⟩

/-! ## Which accounts decode -/

/-- Decoding ends with an orderbook or a `SynthfiError`, and reads the data
alone. -/
def DecodesSafely (accountInfo : AccountInfo) : Prop :=
  ∃ fuel, (∃ orderbook, accountToSerumOrderbookAccount fuel accountInfo = .ok (some orderbook)) ∨
    ∃ error, accountToSerumOrderbookAccount fuel accountInfo = .error error

/-- Every node below the root is there, none lies below itself, and the ways
down to leaves are no more than a vector holds. -/
structure Traversable (slab : List UInt8) : Prop where
  node : ∀ index, Below (cells slab) (rootNode slab) index → getNode slab index ≠ none
  acyclic : ∀ index, Below (cells slab) (rootNode slab) index →
    ¬ Relation.TransGen (Child (cells slab)) index index
  ways_le : (ways (cells slab) (rootNode slab)).encard ≤ maxLeafNodes

theorem exists_getLeafNodes_iff (slab : List UInt8) :
    (∃ fuel nodes, getLeafNodes slab fuel = some nodes) ↔ Traversable slab := by
  have hfinite : Finite SerumNodeIndex :=
    Finite.of_injective UInt32.toFin fun _ _ => UInt32.toFin_inj.mp
  simp only [getLeafNodes_eq_some]
  constructor
  · intro h
    obtain ⟨fuel, nodes, hnodes, hroom⟩ := h
    have hall := (exists_ends_iff (rootNode slab)).mp ⟨fuel, nodes, hnodes⟩
    exact
      { node := fun index hindex => mt cells_eq_none_iff.mpr (hall index hindex).1
        acyclic := fun index hindex => (hall index hindex).2
        ways_le := by
          rw [encard_ways hnodes]
          exact Nat.cast_le.mpr hroom }
  · intro h
    obtain ⟨fuel, nodes, hnodes⟩ := (exists_ends_iff (rootNode slab)).mpr fun index hindex =>
      ⟨mt cells_eq_none_iff.mp (h.node index hindex), h.acyclic index hindex⟩
    have hways := h.ways_le
    rw [encard_ways hnodes] at hways
    exact ⟨fuel, nodes, hnodes, Nat.cast_le.mp hways⟩

theorem decodesSafely_iff_getLeafNodes {accountInfo : AccountInfo}
    (hsize : accountInfo.data.length = SerumOrderbookAccount.size)
    (hside : testFlag (alignSerumData accountInfo.data) .bids ≠
      testFlag (alignSerumData accountInfo.data) .asks) :
    DecodesSafely accountInfo ↔
      ∃ fuel nodes, getLeafNodes (alignSerumData accountInfo.data) fuel = some nodes := by
  have hflags : (testFlag (alignSerumData accountInfo.data) .bids ==
      testFlag (alignSerumData accountInfo.data) .asks) = false := by simpa using hside
  simp only [DecodesSafely, accountToSerumOrderbookAccount, hsize, hflags, ne_eq,
    not_true_eq_false, if_false, Bool.false_eq_true, Except.ok.injEq, Option.map_eq_some_iff,
    reduceCtorEq, exists_false, or_false]
  constructor
  · intro h
    obtain ⟨fuel, _, nodes, hnodes, _⟩ := h
    exact ⟨fuel, nodes, hnodes⟩
  · intro h
    obtain ⟨fuel, nodes, hnodes⟩ := h
    exact ⟨fuel, _, nodes, hnodes, rfl⟩

/-- An account of one side decodes safely exactly if its slab can be
traversed. -/
theorem decodesSafely_iff (accountInfo : AccountInfo)
    (hsize : accountInfo.data.length = SerumOrderbookAccount.size)
    (hside : testFlag (alignSerumData accountInfo.data) .bids ≠
      testFlag (alignSerumData accountInfo.data) .asks) :
    DecodesSafely accountInfo ↔ Traversable (alignSerumData accountInfo.data) :=
  (decodesSafely_iff_getLeafNodes hsize hside).trans (exists_getLeafNodes_iff _)

/-- The account of a slab. -/
def orderbookAccount (slab : List UInt8) : AccountInfo where
  executable := false
  lamports := 0
  owner := ByteArr.fill 32 0
  data := [115, 101, 114, 117, 109] ++ slab ++ [112, 97, 100, 100, 105, 110, 103]

theorem alignSerumData_orderbookAccount (slab : List UInt8) :
    alignSerumData (orderbookAccount slab).data = slab := by
  simp [alignSerumData, orderbookAccount]

theorem length_orderbookAccount (slab : List UInt8) :
    (orderbookAccount slab).data.length = slab.length + 12 := by
  simp only [orderbookAccount, List.length_append, List.length_cons, List.length_nil]
  omega

/-- The two orders as bids, in a slab of its full size. -/
def twoBids : List UInt8 := [33] ++ twoOrders.drop 1 ++ List.replicate 65280 0

theorem length_twoBids : twoBids.length = 65536 := by
  have horders : (twoOrders.drop 1).length = 255 := by decide +kernel
  rw [twoBids, List.length_append, List.length_append, List.length_replicate,
    List.length_singleton, horders]

/-- An inner node and its two leaves can be traversed, since the account decodes. -/
theorem traversable_twoBids : Traversable (alignSerumData (orderbookAccount twoBids).data) := by
  have haligned := alignSerumData_orderbookAccount twoBids
  have hsize : (orderbookAccount twoBids).data.length = SerumOrderbookAccount.size := by
    rw [length_orderbookAccount, length_twoBids]
    rfl
  have hside : testFlag (alignSerumData (orderbookAccount twoBids).data) .bids ≠
      testFlag (alignSerumData (orderbookAccount twoBids).data) .asks := by
    rw [haligned]
    decide +kernel
  have hroot : getNode twoBids (rootNode twoBids) = some (.inner 63 2 1) := by
    rw [getNode, length_twoBids]
    decide +kernel
  have hleft : getNode twoBids 2 = some (.leaf (readLeafNode twoBids 184)) := by
    rw [getNode, length_twoBids]
    decide +kernel
  have hright : getNode twoBids 1 = some (.leaf (readLeafNode twoBids 112)) := by
    rw [getNode, length_twoBids]
    decide +kernel
  have hnodes : getLeafNodes twoBids 2 =
      some [readLeafNode twoBids 184, readLeafNode twoBids 112] := by
    simp only [getLeafNodes, getLeafNodesFrom, hroot, hleft, hright]
    rfl
  have hdecodes := (decodesSafely_iff_getLeafNodes hsize hside).mpr
    ⟨2, _, by rw [haligned, hnodes]⟩
  exact (decodesSafely_iff _ hsize hside).mp hdecodes

/-- Bids without a node. -/
def noBids : List UInt8 := [33] ++ List.replicate 65535 0

theorem length_noBids : noBids.length = 65536 := by
  rw [noBids, List.length_append, List.length_replicate, List.length_singleton]

/-- A slab whose root is no node has no leaves to return, at any depth. -/
theorem getLeafNodes_of_root_none {slab : List UInt8} (h : getNode slab (rootNode slab) = none)
    (fuel : Nat) : getLeafNodes slab fuel = none := by
  cases fuel with
  | zero => simp [getLeafNodes, getLeafNodesFrom]
  | succ fuel => simp [getLeafNodes, getLeafNodesFrom, h]

/-- The bids of a market that never had one: decoding them violates an
assertion. -/
theorem not_decodesSafely_noBids :
    (orderbookAccount noBids).data.length = SerumOrderbookAccount.size ∧
      testFlag (alignSerumData (orderbookAccount noBids).data) .bids = true ∧
      testFlag (alignSerumData (orderbookAccount noBids).data) .asks = false ∧
      ¬ DecodesSafely (orderbookAccount noBids) := by
  have haligned := alignSerumData_orderbookAccount noBids
  have hsize : (orderbookAccount noBids).data.length = SerumOrderbookAccount.size := by
    rw [length_orderbookAccount, length_noBids]
    rfl
  have hbids : testFlag (alignSerumData (orderbookAccount noBids).data) .bids = true := by
    rw [haligned]
    decide +kernel
  have hasks : testFlag (alignSerumData (orderbookAccount noBids).data) .asks = false := by
    rw [haligned]
    decide +kernel
  have hnode : getNode noBids (rootNode noBids) = none := by
    rw [getNode, length_noBids]
    decide +kernel
  refine ⟨hsize, hbids, hasks, ?_⟩
  rw [decodesSafely_iff_getLeafNodes hsize (by simp [hbids, hasks]), haligned]
  intro h
  obtain ⟨fuel, nodes, hnodes⟩ := h
  rw [getLeafNodes_of_root_none hnode] at hnodes
  cases hnodes

end Synthfi.Serum
