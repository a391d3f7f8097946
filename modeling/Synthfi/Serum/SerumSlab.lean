/-
Synthfi.Serum.SerumSlab — the orders of one side of a Serum orderbook
(`Serum/SerumTypes.hpp`, `Serum/SerumTypes.cpp`).

An orderbook account is a slab: a header and an array of nodes of 72 bytes,
which name each other by their place in the array. The reader starts at the
root and collects the leaves.

A reader returns `none` where the code has no result of its own: a byte past
the data, a failed assertion, or a vector that cannot grow any further. The
recursion takes a bound on its depth, which the code does not have.
-/
import Synthfi.Serum.SerumQueue

namespace Synthfi.Serum

open Bytes Solana Trading

/-! ## Nodes -/

abbrev SerumNodeIndex := UInt32

inductive SerumNodeTag where
  | uninitialized
  | innerNode
  | leafNode
  | freeNode
  | lastFreeNode
  deriving DecidableEq, Repr

def SerumNodeTag.ofValue (value : UInt32) : Option SerumNodeTag :=
  [.uninitialized, .innerNode, .leafNode, .freeNode, .lastFreeNode][value.toNat]?

inductive SerumNode where
  | inner (prefixLength : UInt32) (left right : SerumNodeIndex)
  | leaf (node : SerumLeafNode)
  | free
  deriving DecidableEq, Repr

def serumNodeSize : ℕ := 72

def SerumSlabHeader.size : ℕ := 40

def rootNode (slab : List UInt8) : SerumNodeIndex := readU32 slab 28

def leafCount (slab : List UInt8) : UInt64 := readU64 slab 32

def readLeafNode (slab : List UInt8) (offset : ℕ) : SerumLeafNode where
  ownerSlot := readU8 slab (offset + 4)
  feeTier := readU8 slab (offset + 5)
  key := readNodeKey slab (offset + 8)
  owner := readAt 32 slab (offset + 24)
  quantity := readU64 slab (offset + 56)
  clientOrderId := readU64 slab (offset + 64)

/-- `get_node`, with what `get_leaf_nodes` reads of the node: the tag alone of
a free one, an inner one up to its children, the whole of a leaf. -/
def getNode (slab : List UInt8) (index : SerumNodeIndex) : Option SerumNode :=
  let offset := SerumSlabHeader.size + serumNodeSize * index.toNat
  if offset + 4 ≤ slab.length then
    match SerumNodeTag.ofValue (readU32 slab offset) with
    | some .innerNode =>
      if offset + 32 ≤ slab.length then
        some (.inner (readU32 slab (offset + 4)) (readU32 slab (offset + 24))
          (readU32 slab (offset + 28)))
      else none
    | some .leafNode =>
      if offset + serumNodeSize ≤ slab.length then some (.leaf (readLeafNode slab offset))
      else none
    | some .freeNode => some .free
    | some .lastFreeNode => some .free
    -- the two assertions
    | some .uninitialized => none
    | none => none
  else none

/-! ## Leaves -/

/-- `max_size` of a vector of leaf nodes. -/
def maxLeafNodes : ℕ := (2 ^ 63 - 1) / serumNodeSize

/-- The private `get_leaf_nodes`: the leaves below a node, behind the given
ones. -/
def getLeafNodesFrom (slab : List UInt8) :
    ℕ → List SerumLeafNode → SerumNodeIndex → Option (List SerumLeafNode)
  | 0, _, _ => none
  | fuel + 1, nodes, index =>
    match getNode slab index with
    | none => none
    | some (.inner _ left right) =>
      (getLeafNodesFrom slab fuel nodes left).bind fun nodes =>
        getLeafNodesFrom slab fuel nodes right
    | some (.leaf node) => if nodes.length < maxLeafNodes then some (nodes ++ [node]) else none
    | some .free => some nodes

def getLeafNodes (slab : List UInt8) (fuel : ℕ) : Option (List SerumLeafNode) :=
  getLeafNodesFrom slab fuel [] (rootNode slab)

/-! ## Orderbook accounts -/

inductive SerumAccountFlag where
  | bids
  | asks
  deriving DecidableEq, Repr

def SerumAccountFlag.value : SerumAccountFlag → ℕ
  | bids => 5
  | asks => 6

/-- `serumAccountFlags.test`. -/
def testFlag (slab : List UInt8) (flag : SerumAccountFlag) : Bool :=
  (readU64 slab 0).toNat.testBit flag.value

def SerumOrderbookAccount.size : ℕ := 65548

def accountToSerumOrderbookAccount (fuel : ℕ) (accountInfo : AccountInfo) :
    Except SynthfiError (Option SerumOrderbookAccount) :=
  if accountInfo.data.length ≠ SerumOrderbookAccount.size then
    .error ⟨"Invalid SerumOrderbookAccount size"⟩
  else
    let slab := alignSerumData accountInfo.data
    let isBid := testFlag slab .bids
    let isAsk := testFlag slab .asks
    -- the account is of bids or of asks, by assertion
    if isBid == isAsk then .ok none
    else .ok ((getLeafNodes slab fuel).map fun nodes =>
      ⟨if isBid then .bid else .ask, nodes, by split <;> decide⟩)

end Synthfi.Serum
