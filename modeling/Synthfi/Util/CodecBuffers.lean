/-
Synthfi.Util.CodecBuffers — the conversions of `Util/StringEncode.hpp` with
the buffers they write to.

`Util.StringEncode` says what the conversions compute, on lists that grow.
Here each writes where the source does, into an array allocated once, and is
`none` where a write misses it. Indices that count down to -1 count one more.
-/
import Synthfi.Lib.Buffer
import Synthfi.Lib.CheckedVec
import Synthfi.Util.StringEncode

namespace Synthfi.Util.Buffered

open CheckedVec (assign)

/-! ## Decoding base58 -/

/-- `result[ j ]` for the `j` below `resultSize`, of which `count` are left:
the digits are multiplied, and the carry is what remains. -/
def mulDigits : ℕ → ℕ → ℕ → Buffer ℕ → Option (Buffer ℕ × ℕ)
  | 0, _, carry, result => some (result, carry)
  | count + 1, j, carry, result => do
    let digit ← result.cells[j]?
    let carry := carry + digit * 58
    let result ← result.assign j (carry % 256)
    mulDigits count (j + 1) (carry / 256) result

/-- The digits of the carry go behind. -/
def decChar (value : ℕ) (result : Buffer ℕ) : Option (Buffer ℕ) := do
  let (result, carry) ← mulDigits result.used 0 value result
  result.pushAll (carryDigits 256 32 carry)

def decDigits : List Char → Buffer ℕ → Option (Buffer ℕ)
  | [], result => some result
  | char :: chars, result =>
    match alphabetMap char with
    | none => some result
    | some value => do
      let result ← decChar value result
      decDigits chars result

/-- The exchange of both ends, `i` running down to `z`. -/
def swapEnds (z : ℕ) : ℕ → Buffer ℕ → Option (Buffer ℕ)
  | 0, result => some result
  | i + 1, result =>
    if z ≤ i then do
      let k ← result.cells[i]?
      let other ← result.cells[result.used - i - 1]?
      let result ← result.assign i other
      let result ← result.assign (result.used - i - 1) k
      swapEnds z i result
    else some result

/-- `dec_base58`. -/
def decBase58 (text : String) : Option (List UInt8) := do
  let chars := text.toList
  let zeros := (chars.takeWhile (· = '1')).length
  let result ← (Buffer.ofCells (List.replicate chars.length 0)).push 0
  let result ← decDigits chars result
  let result ← result.pushAll (List.replicate zeros 0)
  let result ← swapEnds (result.used / 2 + result.used % 2) result.used result
  some (result.filled.map UInt8.ofNat)

/-! ## Encoding base58 -/

/-- The early ends of `enc_base58`, both without a text. -/
inductive EncBase58Exit where
  | carryLeft
  | resultTooSmall
  deriving DecidableEq, Repr

/-- One byte: `b58[ it1 ]` from the last digit on, until the carry is used up
and `length` digits have been passed. -/
def addByte (length : ℕ) : ℕ → ℕ → ℕ → List ℕ → Option (List ℕ × ℕ × ℕ)
  | 0, i, carry, b58 => some (b58, carry, i)
  | it1 + 1, i, carry, b58 =>
    if carry ≠ 0 ∨ i < length then do
      let digit ← b58[it1]?
      let carry := carry + 256 * digit
      let b58 ← assign b58 it1 (carry % 58)
      addByte length it1 (i + 1) (carry / 58) b58
    else some (b58, carry, i)

/-- All bytes: the digits, and how many of them are used. -/
def addBytes (size : ℕ) :
    List UInt8 → ℕ → List ℕ → Option (Except EncBase58Exit (List ℕ × ℕ))
  | [], length, b58 => some (.ok (b58, length))
  | byte :: bytes, length, b58 => do
    let (b58, carry, i) ← addByte length size 0 byte.toNat b58
    if carry ≠ 0 then some (.error .carryLeft) else addBytes size bytes i b58

/-- The text, behind `zeros` ones; it ends with a NUL. -/
def writeText (capacity zeros : ℕ) (digits : List ℕ) : Option String := do
  let result := Buffer.ofCells (List.replicate capacity '\x00')
  let result ← result.pushAll (List.replicate zeros '1')
  let chars ← digits.mapM fun digit => alphabet[digit]?
  let result ← result.pushAll chars
  let result ← result.assign result.used '\x00'
  some (String.ofList result.filled)

/-- `enc_base58`. -/
def encBase58 (source : List UInt8) : Option (Except EncBase58Exit String) := do
  let zeros := (source.takeWhile (· = 0)).length
  let size := encSize (source.length - zeros)
  match ← addBytes size (source.drop zeros) 0 (List.replicate size 0) with
  | .error exit => some (.error exit)
  | .ok (b58, length) =>
    let significant := (b58.drop (size - length)).dropWhile (· = 0)
    if zeros + significant.length + 1 > source.length * 2 then some (.error .resultTooSmall)
    else (writeText (source.length * 2) zeros significant).map .ok

/-! ## Base64 -/

def encBase64Tail (a3 : List UInt8) (result : Buffer Char) : Option (Buffer Char) :=
  let i := a3.length
  if i = 0 then some result
  else do
    let a4 := a3ToA4 (a3 ++ List.replicate (3 - i) 0)
    let result ← result.pushAll ((a4.take (i + 1)).map b64Char)
    result.pushAll (List.replicate (3 - i) '=')

def encBase64Loop : List UInt8 → List UInt8 → Buffer Char → Option (Buffer Char)
  | [], a3, result => encBase64Tail a3 result
  | c :: source, a3, result =>
    let a3 := a3 ++ [c]
    if a3.length = 3 then do
      let result ← result.pushAll ((a3ToA4 a3).map b64Char)
      encBase64Loop source [] result
    else encBase64Loop source a3 result

/-- `enc_base64`. -/
def encBase64 (source : List UInt8) : Option String := do
  let result := Buffer.ofCells (List.replicate (source.length * 2) '\x00')
  let result ← encBase64Loop source [] result
  some (String.ofList result.filled)

def decBase64Tail (a4 : List Char) (result : Buffer UInt8) : Option (Buffer UInt8) :=
  let i := a4.length
  if i = 0 then some result
  else
    let a4 := (a4 ++ List.replicate (4 - i) '\x00').map b64Lookup
    result.pushAll ((a4ToA3 a4).take (i - 1))

def decBase64Loop : List Char → List Char → Buffer UInt8 → Option (Buffer UInt8)
  | [], a4, result => decBase64Tail a4 result
  | c :: text, a4, result =>
    if c = '=' then decBase64Tail a4 result
    else
      let a4 := a4 ++ [c]
      if a4.length = 4 then do
        let result ← result.pushAll (a4ToA3 (a4.map b64Lookup))
        decBase64Loop text [] result
      else decBase64Loop text a4 result

/-- `dec_base64`. -/
def decBase64 (text : String) : Option (List UInt8) := do
  let chars := text.toList
  let result := Buffer.ofCells (List.replicate chars.length 0)
  let result ← decBase64Loop chars [] result
  some result.filled

end Synthfi.Util.Buffered
