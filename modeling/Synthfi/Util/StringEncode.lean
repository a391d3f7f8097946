/-
Synthfi.Util.StringEncode — binary data as base58 and base64 text
(`Util/StringEncode.hpp`).

Both base58 conversions keep the digits of one number, here the least
significant first, and multiply them by the base of the other side. Those of
base64 work on blocks of three bytes and four characters; their arrays `a3`
and `a4` are lists of the `i` entries filled so far, and the buffers of their
results grow.
-/
import Synthfi.Lib.Bytes

namespace Synthfi.Util

/-- `ALPHABET`. -/
def alphabet : List Char :=
  "123456789ABCDEFGHJKLMNPQRSTUVWXYZabcdefghijkmnopqrstuvwxyz".toList

/-- `ALPHABET_MAP`; `-1` is `none`. -/
def alphabetMap (char : Char) : Option ℕ := alphabet.findIdx? (· = char)

/-- The digits of a 32-bit carry, up to the last that is not zero. -/
def carryDigits (base : ℕ) : ℕ → ℕ → List ℕ
  | 0, _ => []
  | fuel + 1, carry =>
    if carry = 0 then [] else carry % base :: carryDigits base fuel (carry / base)

/-- `digits * factor + carry`. -/
def mulAdd (base factor : ℕ) : ℕ → List ℕ → List ℕ
  | carry, [] => carryDigits base 32 carry
  | carry, digit :: digits =>
    let carry := carry + digit * factor
    carry % base :: mulAdd base factor (carry / base) digits

/-! ## Decoding -/

/-- A character outside the alphabet ends the text. -/
def decDigits : List Char → List ℕ → List ℕ
  | [], digits => digits
  | char :: chars, digits =>
    match alphabetMap char with
    | none => digits
    | some value => decDigits chars (mulAdd 256 58 value digits)

/-- `dec_base58`. The number zero has one digit. -/
def decBase58 (text : String) : List UInt8 :=
  let chars := text.toList
  let zeros := (chars.takeWhile (· = '1')).length
  ((decDigits chars [0] ++ List.replicate zeros 0).map UInt8.ofNat).reverse

/-- The vector is as long as the text, and digits are only ever added at its
end. -/
def decInBounds (text : String) : Prop := (decBase58 text).length ≤ text.toList.length

/-! ## Encoding -/

/-- The digits reserved for `n` bytes. -/
def encSize (n : ℕ) : ℕ := 1 + 136565823730976 * n / 10 ^ 14

def encDigits : List UInt8 → List ℕ → List ℕ
  | [], digits => digits
  | byte :: bytes, digits => encDigits bytes (mulAdd 58 256 byte.toNat digits)

/-- `enc_base58`; empty when there are more digits than reserved. -/
def encBase58 (source : List UInt8) : String :=
  let zeros := (source.takeWhile (· = 0)).length
  let digits := encDigits (source.drop zeros) []
  let significant := digits.reverse.dropWhile (· = 0)
  if digits.length > encSize (source.length - zeros) then ""
  else if zeros + significant.length + 1 > 2 * source.length then ""
  else String.ofList (List.replicate zeros '1' ++
    significant.filterMap fun digit => alphabet[digit]?)

/-! ## Base64 -/

def b64Alphabet : List Char :=
  "ABCDEFGHIJKLMNOPQRSTUVWXYZabcdefghijklmnopqrstuvwxyz0123456789+/".toList

def a3ToA4 (a3 : List UInt8) : List UInt8 :=
  let a k := a3.getD k 0
  [(a 0 &&& 0xfc) >>> 2,
    ((a 0 &&& 0x03) <<< 4) + ((a 1 &&& 0xf0) >>> 4),
    ((a 1 &&& 0x0f) <<< 2) + ((a 2 &&& 0xc0) >>> 6),
    a 2 &&& 0x3f]

def a4ToA3 (a4 : List UInt8) : List UInt8 :=
  let a k := a4.getD k 0
  [(a 0 <<< 2) + ((a 1 &&& 0x30) >>> 4),
    ((a 1 &&& 0xf) <<< 4) + ((a 2 &&& 0x3c) >>> 2),
    ((a 2 &&& 0x3) <<< 6) + a 3]

/-- `b64_lookup`, read as an unsigned byte. -/
def b64Lookup (c : Char) : UInt8 :=
  let code := UInt8.ofNat c.toNat
  if 'A' ≤ c ∧ c ≤ 'Z' then code - 65
  else if 'a' ≤ c ∧ c ≤ 'z' then code - 71
  else if '0' ≤ c ∧ c ≤ '9' then code + 4
  else if c = '+' then 62
  else if c = '/' then 63
  else -1

def encBase64Len (size : ℕ) : ℕ := (size + 2 - (size + 2) % 3) / 3 * 4

/-- `b64_alphabet[ a4[ i ] ]`; the array ends with a NUL. -/
def b64Char (value : UInt8) : Char := b64Alphabet.getD value.toNat '\x00'

/-- The last block, which is not full. -/
def encBase64Tail (a3 : List UInt8) : List Char :=
  let i := a3.length
  if i = 0 then []
  else
    let a4 := a3ToA4 (a3 ++ List.replicate (3 - i) 0)
    (a4.take (i + 1)).map b64Char ++ List.replicate (3 - i) '='

def encBase64Loop : List UInt8 → List UInt8 → List Char
  | [], a3 => encBase64Tail a3
  | c :: source, a3 =>
    let a3 := a3 ++ [c]
    if a3.length = 3 then (a3ToA4 a3).map b64Char ++ encBase64Loop source []
    else encBase64Loop source a3

def encBase64 (source : List UInt8) : String := String.ofList (encBase64Loop source [])

/-- The last block, which is not full: its other entries are NULs, and these
are looked up like characters. -/
def decBase64Tail (a4 : List Char) : List UInt8 :=
  let i := a4.length
  if i = 0 then []
  else
    let a4 := (a4 ++ List.replicate (4 - i) '\x00').map b64Lookup
    (a4ToA3 a4).take (i - 1)

/-- The first `=` ends the text. -/
def decBase64Loop : List Char → List Char → List UInt8
  | [], a4 => decBase64Tail a4
  | c :: text, a4 =>
    if c = '=' then decBase64Tail a4
    else
      let a4 := a4 ++ [c]
      if a4.length = 4 then a4ToA3 (a4.map b64Lookup) ++ decBase64Loop text []
      else decBase64Loop text a4

def decBase64 (text : String) : List UInt8 := decBase64Loop text.toList []

end Synthfi.Util
