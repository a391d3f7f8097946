/-
Synthfi.Solana.ProgramInstruction — instructions for the on-chain program
(`Solana/SynthfiInstruction.hpp`).

The classes are `Instruction`s with the program id and the account indices
as template arguments. They are always used with data, so the byte that an
empty item array is laid over does not matter.
-/
import Synthfi.Program.Synthesizer
import Synthfi.Solana.Transaction

namespace Synthfi.Solana

theorem uint32_size_pos : 0 < 4 := by decide

def IntegralItem.uint32 (value : ℕ) : IntegralItem := ⟨4, uint32_size_pos, BitVec.ofNat 32 value⟩

/-- `SYNTHFI_VERSION`. -/
def synthfiVersion : ℕ := Program.synthfiVersion1

def synthfiInit : ℕ := 0

def synthfiAddProduct : ℕ := 1

def initSynthfiInstruction (programId : UInt8) (accountIndices : List UInt8) :
    DynamicInstruction :=
  ⟨programId, accountIndices, [.uint32 synthfiVersion, .uint32 synthfiInit], 0⟩

def initSynthfiProductInstruction (programId : UInt8) (accountIndices : List UInt8) :
    DynamicInstruction :=
  ⟨programId, accountIndices, [.uint32 synthfiVersion, .uint32 synthfiAddProduct], 0⟩

end Synthfi.Solana
