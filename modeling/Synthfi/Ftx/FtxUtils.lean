/-
Synthfi.Ftx.FtxUtils — the orderbook checksum of `Ftx/FtxUtils.cpp`.

The text of a price or quantity (`v.str( )`) comes from the decimal float
library and is the parameter `str`; text is a list of bytes, as in
`std::string`.
-/
import Synthfi.Trading.Book

namespace Synthfi.Ftx

open Trading

/-- A `char` widened to `uint32_t`: `char` is signed, so a byte from 0x80 on
sign-extends. -/
def charToU32 (c : UInt8) : UInt32 :=
  if c < 0x80 then c.toUInt32 else c.toUInt32 ||| 0xFFFFFF00

/-- One of the eight shifts per byte. -/
def crc32Bit (crc : UInt32) : UInt32 :=
  if crc &&& 1 = 1 then (crc >>> 1) ^^^ 0xEDB88320 else crc >>> 1

def crc32Byte (crc : UInt32) (c : UInt8) : UInt32 :=
  crc32Bit^[8] (crc ^^^ charToU32 c)

def crc32Checksum (data : List UInt8) : UInt32 :=
  ~~~ data.foldl crc32Byte 0xFFFFFFFF

/-- ASCII `:`. -/
def colon : UInt8 := 58

/-- `serializeWithTrailingZero`: an integer gets `.0` appended. -/
def serializeWithTrailingZero (str : Price → List UInt8) (fixedPoint : Price) : List UInt8 :=
  if fixedPoint.den = 1 then str fixedPoint ++ [46, 48, colon] else str fixedPoint ++ [colon]

/-- The texts written at one depth of the book, bid before ask. -/
def checksumLevel (str : Price → List UInt8) (book : Book) (i : ℕ) : List UInt8 :=
  let side (levels : SideBook) : List UInt8 :=
    match levels[i]? with
    | some level =>
      serializeWithTrailingZero str level.price ++ serializeWithTrailingZero str level.quantity
    | none => []
  side (book.get .bid) ++ side (book.get .ask)

/-- The first 100 depths, without the last separator. -/
def generateChecksumString (str : Price → List UInt8) (book : Book) : List UInt8 :=
  let depth := min 100 (max (book.get .ask).length (book.get .bid).length)
  ((List.range depth).flatMap (checksumLevel str book)).dropLast

def ftxOrderbookChecksum (str : Price → List UInt8) (book : Book) : UInt32 :=
  crc32Checksum (generateChecksumString str book)

end Synthfi.Ftx
