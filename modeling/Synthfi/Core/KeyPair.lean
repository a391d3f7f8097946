/-
Synthfi.Core.KeyPair — hashes, keys and signatures
(`Core/KeyPair.{hpp,cpp}`).

The JSON form of a key is an array of its bytes as numbers. Of a JSON value
that is read, only `to_number< uint8_t >` matters.
-/
import Synthfi.Util.StringEncode

namespace Synthfi.Core

open Bytes Util

/-- 32-byte hash. -/
abbrev Hash := ByteArr 32

/-- A public key is a hash. -/
abbrev PublicKey := Hash

namespace Hash

def isZero (hash : Hash) : Bool := hash.1.all (· == 0)

def encBinaryJson (hash : Hash) : List UInt8 := hash.1

/-- The bytes of an array of 32 numbers. -/
def initFromBinaryJson {Value : Type} (toNumber : Value → Option UInt8) (json : List Value) :
    Option Hash :=
  if json.length ≠ 32 then none
  else (json.mapM toNumber).bind fun bytes =>
    if h : bytes.length = 32 then some ⟨bytes, h⟩ else none

def encBase58Text (hash : Hash) : String := encBase58 hash.1

def initFromBase58 (text : String) : Option Hash :=
  let result := decBase58 text
  if h : result.length = 32 then some ⟨result, h⟩ else none

end Hash

/-- Public/private key pair: a `PublicKey` with the private half added. -/
structure KeyPair where
  hash : PublicKey
  privateKey : ByteArr 32
  deriving DecidableEq, Repr

namespace KeyPair

/-- Serialize private key, followed by public key. -/
def encBinaryJson (keyPair : KeyPair) : List UInt8 :=
  keyPair.privateKey.1 ++ keyPair.hash.encBinaryJson

/-- Deserialize private key, followed by public key. -/
def initFromBinaryJson {Value : Type} (toNumber : Value → Option UInt8) (json : List Value) :
    Option KeyPair :=
  if json.length ≠ 64 then none
  else (Hash.initFromBinaryJson toNumber (json.take 32)).bind fun privateKey =>
    (Hash.initFromBinaryJson toNumber (json.drop 32)).map fun hash => ⟨hash, privateKey⟩

end KeyPair

/-- Digital signature. -/
abbrev Signature := ByteArr 64

namespace Signature

def encBase58Text (signature : Signature) : String := encBase58 signature.1

def initFromBase58 (text : String) : Option Signature :=
  let result := decBase58 text
  if h : result.length = 64 then some ⟨result, h⟩ else none

end Signature

end Synthfi.Core
