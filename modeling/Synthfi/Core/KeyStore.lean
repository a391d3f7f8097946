/-
Synthfi.Core.KeyStore — the store of key pairs
(`Core/KeyStore/KeyStoreImpl.{hpp,cpp}`).

A key pair is kept in two maps and, as a JSON array, in the file of its tag.
The directory is a map from file names to their bytes. Calls are coroutines
on one strand, numbered in the order they start; each is kept with its tag
and the point where its file stands. What a label adds is outside: the key a
call generates, whether a file opens, how much of a write is stored and how
it ends, and how much a read returns.

`boost::json` is a parameter: how it writes an array of small integers, and
its incremental parser.
-/
import Synthfi.Core.KeyPair
import Synthfi.Lib.PartialMap
import Synthfi.Lib.Run
import Synthfi.Lib.StreamParser
import Synthfi.Solana.SolanaTypes

namespace Synthfi.Core

open Bytes PartialMap

/-- What the key store uses of `boost::json`. -/
structure BoostJson where
  Value : Type
  /-- `serialize` of an array of numbers. -/
  serialize : List UInt8 → List UInt8
  /-- `stream_parser`. -/
  parser : StreamParser UInt8
  release : parser.State → Value
  /-- `as_array`, where `is_array` holds. -/
  asArray : Value → Option (List Value)
  /-- `to_number< uint8_t >`. -/
  toNumber : Value → Option UInt8

/-- `boost::json` as far as the key store relies on it: an array of small
integers is read back as it was written, and a parser is not done before it
has read anything. -/
structure BoostJson.Inverse (json : BoostJson) : Prop where
  notDone : json.parser.done json.parser.start = false
  serialize : ∀ bytes, ∃ parser values,
    json.parser.write json.parser.start (json.serialize bytes) = some parser ∧
      json.parser.done parser = true ∧ json.asArray (json.release parser) = some values ∧
      values.map json.toNumber = bytes.map some

inductive KeyStoreError where
  | synthfi (error : SynthfiError)
  /-- An exception of the file system or of the parser. -/
  | system
  deriving DecidableEq, Repr

/-- Where a call stands. -/
inductive KeyStoreCall (ParserState : Type) where
  /-- It awaits the write of a new key pair; `rest` is not stored yet. -/
  | writing (tag : String) (keyPair : KeyPair) (rest : List UInt8)
  /-- It awaits a read at `offset`. -/
  | reading (tag : String) (offset : ℕ) (parser : ParserState)
  | returned
  | threw (error : KeyStoreError)

structure KeyStore (json : BoostJson) where
  publicKeys : String → Option PublicKey
  keyPairs : String → Option KeyPair
  files : String → Option (List UInt8)
  calls : List (KeyStoreCall json.parser.State)

/-! ## Registered keys -/

def base58ToPublicKey (text : String) : Except SynthfiError PublicKey :=
  match Hash.initFromBase58 text with
  | none => .error ⟨"Invalid PublicKey "⟩
  | some publicKey => .ok publicKey

def getSysvarRent : String := "SysvarRent111111111111111111111111111111111"

def getSplTokenProgram : String := "TokenkegQfeZyiNwAJbNbGKPFXCWuBvf9Ss623VQ5DA"

def getUsdtMainnet : String := "Es9vMFrzaCERmJfrF4H2FYD4KCoNkY11McCe8BenwNYB"

def getPythUsdt : String := "C5wDxND9E61RZ1wZhaSTWkoA8udumaHnoQY6BBsiaVpn"

/-- The key that a text which is known to decode stands for. -/
def decoded (text : String) : PublicKey :=
  (base58ToPublicKey text).toOption.getD (ByteArr.fill 32 0)

/-- What the constructor puts into `_publicKeys`. -/
def registeredKeys : List (String × PublicKey) :=
  [("sysvar_program", ByteArr.fill 32 0), ("sysvar_rent", decoded getSysvarRent),
    ("spl_token_program", decoded getSplTokenProgram), ("pyth_usdt_product", decoded getPythUsdt),
    ("mainnet_usdt", decoded getUsdtMainnet)]

/-- The constructor does not throw. -/
example : [getSysvarRent, getSplTokenProgram, getPythUsdt, getUsdtMainnet].all
    (fun text => (base58ToPublicKey text).toOption.isSome) := by decide +kernel

def registered (tag : String) : Option PublicKey :=
  (registeredKeys.find? fun entry => entry.1 = tag).map Prod.snd

def getKeyPairPath (tag : String) : String := tag ++ "_keypair" ++ ".json"

namespace KeyStore

variable {json : BoostJson}

/-- The constructor, over a directory. -/
def init (json : BoostJson) (files : String → Option (List UInt8)) : KeyStore json :=
  ⟨registered, fun _ => none, files, []⟩

variable (s : KeyStore json)

def setCall (k : ℕ) (call : KeyStoreCall json.parser.State) : KeyStore json :=
  { s with calls := s.calls.set k call }

/-- The two `emplace`s at the end of a call. -/
def insert (tag : String) (keyPair : KeyPair) : KeyStore json :=
  { s with
    publicKeys := emplace s.publicKeys tag keyPair.hash
    keyPairs := emplace s.keyPairs tag keyPair }

/-! ## Creating a key pair -/

/-- `do_create_key_pair_tag` with the key it generates, up to the write. The
file is opened exclusively. -/
def doCreateKeyPairTag (tag : String) (keyPair : KeyPair) (openFails : Bool) : KeyStore json :=
  if openFails || (s.files (getKeyPairPath tag)).isSome then
    { s with calls := s.calls ++ [.threw .system] }
  else
    { s with
      files := Function.update s.files (getKeyPairPath tag) (some [])
      calls := s.calls ++ [.writing tag keyPair (json.serialize keyPair.encBinaryJson)] }

/-- `do_create_key_pair`: the tag is the text of the public key. -/
def doCreateKeyPair (keyPair : KeyPair) (openFails : Bool) : KeyStore json :=
  s.doCreateKeyPairTag keyPair.hash.encBase58Text keyPair openFails

/-- `n` more bytes of a write are stored. -/
def store (k : ℕ) (tag : String) (keyPair : KeyPair) (rest : List UInt8) (n : ℕ) : KeyStore json :=
  { s with
    files := Function.update s.files (getKeyPairPath tag)
      ((s.files (getKeyPairPath tag)).map (· ++ rest.take n)) }.setCall k
        (.writing tag keyPair (rest.drop n))

/-- The end of a call after its write. `do_write_key_pair` returns normally
when the write failed, too. -/
def afterWrite (k : ℕ) (tag : String) (keyPair : KeyPair) : KeyStore json :=
  (s.insert tag keyPair).setCall k .returned

/-! ## Loading a key pair -/

/-- `do_load_key_pair` up to its first read. -/
def doLoadKeyPair (tag : String) (openFails : Bool) : KeyStore json :=
  if (s.keyPairs tag).isSome then { s with calls := s.calls ++ [.returned] }
  else if openFails || (s.files (getKeyPairPath tag)).isNone then
    { s with calls := s.calls ++ [.threw (.synthfi ⟨"Error loading key pair file"⟩)] }
  else { s with calls := s.calls ++ [.reading tag 0 json.parser.start] }

/-- The key pair in a value that has been parsed. -/
def keyPairOf (value : json.Value) : Except SynthfiError KeyPair :=
  match json.asArray value with
  | none => .error ⟨"json parse error"⟩
  | some array =>
    match KeyPair.initFromBinaryJson json.toNumber array with
    | none => .error ⟨"invalid binary key pair"⟩
    | some keyPair => .ok keyPair

/-- The end of a call after its last read. -/
def finishLoad (k : ℕ) (tag : String) (parser : json.parser.State) : KeyStore json :=
  match keyPairOf (json.release parser) with
  | .error error => s.setCall k (.threw (.synthfi error))
  | .ok keyPair => (s.insert tag keyPair).setCall k .returned

/-- After a read of `chunk`. An empty one ends the loop, and the value is not
complete. -/
def afterRead (k : ℕ) (tag : String) (offset : ℕ) (parser : json.parser.State)
    (chunk : List UInt8) : KeyStore json :=
  if chunk = [] then s.setCall k (.threw (.synthfi ⟨"json parse error"⟩))
  else
    match json.parser.write parser chunk with
    | none => s.setCall k (.threw .system)
    | some parser =>
      if json.parser.done parser then s.finishLoad k tag parser
      else s.setCall k (.reading tag (offset + chunk.length) parser)

def doGetPublicKey (tag : String) : Except SynthfiError PublicKey :=
  match s.publicKeys tag with
  | none => .error ⟨"Public key does not exist"⟩
  | some publicKey => .ok publicKey

def doGetKeyPair (tag : String) : Except SynthfiError KeyPair :=
  match s.keyPairs tag with
  | none => .error ⟨"Key pair does not exist"⟩
  | some keyPair => .ok keyPair

/-! ## Steps -/

inductive Label where
  | createTag (tag : String) (keyPair : KeyPair) (openFails : Bool)
  | create (keyPair : KeyPair) (openFails : Bool)
  | load (tag : String) (openFails : Bool)
  /-- `n` more bytes of the write of call `k` are stored. -/
  | stored (k : ℕ) (n : ℕ)
  /-- The write of call `k` is over: all is stored, or it failed. -/
  | wrote (k : ℕ) (failed : Bool)
  /-- The read of call `k` returns the next `n` bytes, as many as fit its
  buffer. -/
  | read (k : ℕ) (n : ℕ)
  /-- The read of call `k` fails, also at the end of the file. -/
  | readFails (k : ℕ)
  deriving DecidableEq

def step (s : KeyStore json) : Label → Option (KeyStore json)
  | .createTag tag keyPair openFails => some (s.doCreateKeyPairTag tag keyPair openFails)
  | .create keyPair openFails => some (s.doCreateKeyPair keyPair openFails)
  | .load tag openFails => some (s.doLoadKeyPair tag openFails)
  | .stored k n =>
    match s.calls[k]? with
    | some (.writing tag keyPair rest) => some (s.store k tag keyPair rest n)
    | _ => none
  | .wrote k failed =>
    match s.calls[k]? with
    | some (.writing tag keyPair rest) =>
      if failed || rest.isEmpty then some (s.afterWrite k tag keyPair) else none
    | _ => none
  | .read k n =>
    match s.calls[k]? with
    | some (.reading tag offset parser) =>
      (s.files (getKeyPairPath tag)).bind fun content =>
        if offset + n ≤ content.length ∧ n ≤ 1024 then
          some (s.afterRead k tag offset parser ((content.drop offset).take n))
        else none
    | _ => none
  | .readFails k =>
    match s.calls[k]? with
    | some (.reading _ _ _) => some (s.setCall k (.threw .system))
    | _ => none

end KeyStore

end Synthfi.Core
