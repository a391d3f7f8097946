/-
Synthfi.Solana.SolanaTypes — accounts as the RPC node returns them
(`Solana/SolanaTypes.hpp`, `Solana/Token.cpp`).

`account_to< T >` is a family of readers of an account's raw bytes: each
checks the size of the data and reads the fields at their offsets.
-/
import Synthfi.Core.KeyPair

namespace Synthfi

/-- `SynthfiError`: the text of the exception. -/
structure SynthfiError where
  what : String
  deriving DecidableEq, Repr

namespace Solana

open Synthfi.Core Bytes

structure AccountInfo where
  executable : Bool
  lamports : UInt64
  owner : PublicKey
  data : List UInt8
  deriving DecidableEq, Repr

/-- `get_multiple_accounts`: the infos for a list of keys, in its order, or
the exception of the request. -/
abbrev AccountBatcher := List PublicKey → Except SynthfiError (List AccountInfo)

structure TokenMintAccount where
  mintAuthority : Option PublicKey
  supply : UInt64
  decimals : UInt8
  isInitialized : Bool
  freezeAuthority : Option PublicKey
  deriving DecidableEq, Repr

def TokenMintAccount.size : ℕ := 82

/-- `account_to< TokenMintAccount >`. The two authorities are copied into the
storage of optionals that nothing engages, so both stay empty. -/
def accountToTokenMintAccount (accountInfo : AccountInfo) : Except SynthfiError TokenMintAccount :=
  if accountInfo.data.length ≠ TokenMintAccount.size then .error ⟨"Invalid TokenMint size"⟩
  else .ok
    { mintAuthority := none
      supply := readU64 accountInfo.data 36
      decimals := readU8 accountInfo.data 44
      isInitialized := readU8 accountInfo.data 45 != 0
      freezeAuthority := none }

end Solana
end Synthfi
