/-
Synthfi.Trading.Book — sides, price levels and order books
(`Trading/Side.hpp`, `Trading/PriceQuantity.hpp`, `Trading/Book.hpp`).

`FixedFloat` (a 32-digit decimal float) is taken as exact rational
arithmetic, so prices and quantities are rationals. The fields of `Book`
that no modelled function reads back are its two timestamps; they are kept
because the update functions write them.
-/
import Mathlib.Data.Rat.Defs
import Mathlib.Algebra.Order.Ring.Rat
import Synthfi.Lib.SortedVec

namespace Synthfi.Trading

/-- `FixedFloat`, in exact arithmetic. -/
abbrev Price := ℚ

abbrev Quantity := ℚ

/-- Nanoseconds since the epoch of `high_resolution_clock`. -/
abbrev Timestamp := ℤ

/-! ## Sides -/

inductive Side where
  | bid
  | ask
  | invalid
  deriving DecidableEq, Repr

def sideFlip (side : Side) : Side :=
  if side = .bid then .ask else .bid

structure SidePair (α : Type*) where
  bid : α
  ask : α
  deriving DecidableEq, Repr

namespace SidePair

variable {α : Type*}

/-- The run-time getter: everything that is not `bid` reads the ask item. -/
def get (pair : SidePair α) (side : Side) : α :=
  if side = .bid then pair.bid else pair.ask

/-- Assignment through the reference that the getter returns. -/
def set (pair : SidePair α) (side : Side) (item : α) : SidePair α :=
  if side = .bid then { pair with bid := item } else { pair with ask := item }

@[simp] theorem get_set_self (pair : SidePair α) (side : Side) (item : α) :
    (pair.set side item).get side = item := by
  cases side <;> rfl

theorem get_set (pair : SidePair α) (side side' : Side) (item : α) :
    (pair.set side item).get side' =
      if (side' = .bid ↔ side = .bid) then item else pair.get side' := by
  cases side <;> cases side' <;> rfl

@[simp] theorem get_mk_bid (b a : α) : (SidePair.mk b a).get .bid = b := rfl

@[simp] theorem get_mk_ask (b a : α) : (SidePair.mk b a).get .ask = a := rfl

end SidePair

/-- `p` stands before `q` on a book side: higher bids first, lower asks
first. -/
def Side.Better (side : Side) (p q : Price) : Prop :=
  if side = .bid then q < p else p < q

instance (side : Side) : DecidableRel side.Better := fun p q => by
  unfold Side.Better; infer_instance

instance (side : Side) : IsStrictTotalOrder Price side.Better where
  trichotomous p q := by
    unfold Side.Better
    split
    · intro h1 h2; exact le_antisymm (not_lt.mp h1) (not_lt.mp h2)
    · intro h1 h2; exact le_antisymm (not_lt.mp h2) (not_lt.mp h1)
  irrefl p := by unfold Side.Better; split <;> exact lt_irrefl p
  trans p q r := by
    unfold Side.Better
    split
    · intro h1 h2; exact lt_trans h2 h1
    · exact lt_trans

/-! ## Price levels and books -/

structure PriceQuantity where
  price : Price
  quantity : Quantity
  deriving DecidableEq, Repr

/-- `PriceQuantity::operator+=`: the quantity grows, the price stays. -/
def PriceQuantity.add (level that : PriceQuantity) : PriceQuantity :=
  { level with quantity := level.quantity + that.quantity }

@[simp] theorem PriceQuantity.add_price (level that : PriceQuantity) :
    (level.add that).price = level.price := rfl

@[simp] theorem PriceQuantity.add_quantity (level that : PriceQuantity) :
    (level.add that).quantity = level.quantity + that.quantity := rfl

abbrev SideBook := List PriceQuantity

structure Book where
  exchangeTimestamp : Timestamp
  receiveTimestamp : Timestamp
  sideBooks : SidePair SideBook
  deriving DecidableEq, Repr

/-- The book `std::vector::resize` value-initialises. -/
def Book.empty : Book := ⟨0, 0, ⟨[], []⟩⟩

def Book.get (book : Book) (side : Side) : SideBook := book.sideBooks.get side

def Book.set (book : Book) (side : Side) (sideBook : SideBook) : Book :=
  { book with sideBooks := book.sideBooks.set side sideBook }

@[simp] theorem Book.get_set_self (book : Book) (side : Side) (sideBook : SideBook) :
    (book.set side sideBook).get side = sideBook :=
  SidePair.get_set_self ..

theorem Book.get_set (book : Book) (side side' : Side) (sideBook : SideBook) :
    (book.set side sideBook).get side' =
      if (side' = .bid ↔ side = .bid) then sideBook else book.get side' :=
  SidePair.get_set ..

@[simp] theorem Book.get_empty (side : Side) : Book.empty.get side = [] := by
  cases side <;> rfl

/-! ## What a book side stands for -/

/-- A book side as a finite map: the quantity offered at a price. -/
abbrev LevelMap := Price → Option Quantity

/-- Setting one level: quantity 0 removes the price. -/
def LevelMap.apply (m : LevelMap) (level : PriceQuantity) : LevelMap := fun p =>
  if p = level.price then
    if level.quantity = 0 then none else some level.quantity
  else m p

theorem LevelMap.apply_of_ne (m : LevelMap) {level : PriceQuantity} {p : Price}
    (h : p ≠ level.price) : m.apply level p = m p := if_neg h

theorem LevelMap.apply_self (m : LevelMap) (level : PriceQuantity) :
    m.apply level level.price =
      if level.quantity = 0 then none else some level.quantity := if_pos rfl

/-- `book` lists exactly the levels of `m`, best price first. -/
structure BookLists (side : Side) (book : SideBook) (m : LevelMap) : Prop where
  sorted : SortedVec.SortedBy side.Better PriceQuantity.price book
  no_zero : ∀ level ∈ book, level.quantity ≠ 0
  lists : ∀ level : PriceQuantity, level ∈ book ↔ m level.price = some level.quantity

theorem bookLists_nil (side : Side) : BookLists side [] fun _ => none :=
  ⟨List.Pairwise.nil, by simp, by simp⟩

/-- The vector is determined by the map it lists. -/
theorem BookLists.unique {side : Side} {book book' : SideBook} {m : LevelMap}
    (h : BookLists side book m) (h' : BookLists side book' m) : book = book' :=
  h.sorted.eq_of_mem_iff h'.sorted fun level => (h.lists level).trans (h'.lists level).symm

theorem BookLists.isSome_iff {side : Side} {book : SideBook} {m : LevelMap}
    (h : BookLists side book m) (p : Price) :
    (m p).isSome ↔ ∃ level ∈ book, level.price = p := by
  rw [Option.isSome_iff_exists]
  constructor
  · rintro ⟨q, hq⟩
    exact ⟨⟨p, q⟩, (h.lists ⟨p, q⟩).mpr hq, rfl⟩
  · rintro ⟨level, hl, rfl⟩
    exact ⟨level.quantity, (h.lists level).mp hl⟩

end Synthfi.Trading
