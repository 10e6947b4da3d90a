import SolanaGacha.Program.Admin
import SolanaGacha.Program.Operator
import SolanaGacha.Program.Player

/-!
# The entrypoint

The program's `lib.rs`: the first byte of the instruction data selects the handler.
-/

namespace SolanaGacha

open Except

/-- An instruction for the program: its accounts and its data. -/
structure Instruction where
  accounts : List AccountInfo
  data : List UInt8
  deriving DecidableEq

/-- `process_instruction`. -/
def processInstruction (rt : Runtime) (w : World) (ix : Instruction) : Except Fault World :=
  match ix.data with
  | [] => .error .invalidInstructionData
  | discriminator :: data =>
    if discriminator = 20 then do
      Settle.process rt w (← SettleAccounts.tryFrom w ix.accounts) (← SettleInstructionData.tryFrom data)
    else if discriminator = 21 then do
      Deliver.process rt w (← DeliverAccounts.tryFrom w ix.accounts)
        (← DeliverInstructionData.tryFrom data)
    else if discriminator = 10 then do
      Buy.process rt w (← BuyAccounts.tryFrom w ix.accounts) (← BuyInstructionData.tryFrom data)
    else if discriminator = 11 then do
      Refund.process rt w (← RefundAccounts.tryFrom w ix.accounts)
    else if discriminator = 12 then do
      Buyback.process rt w (← BuybackAccounts.tryFrom w ix.accounts)
        (← BuybackInstructionData.tryFrom w data)
    else if discriminator = 0 then do
      CreatePool.process rt w (← CreatePoolAccounts.tryFrom w ix.accounts)
        (← CreatePoolInstructionData.tryFrom data)
    else if discriminator = 1 then do
      DepositItem.process rt w (← DepositItemAccounts.tryFrom w ix.accounts)
        (← DepositItemInstructionData.tryFrom data)
    else if discriminator = 2 then do
      Withdraw.process rt w (← WithdrawAccounts.tryFrom w ix.accounts)
        (← WithdrawInstructionData.tryFrom data)
    else if discriminator = 3 then do
      SetStatus.process rt w (← SetStatusAccounts.tryFrom w ix.accounts)
        (← SetStatusInstructionData.tryFrom data)
    else if discriminator = 4 then do
      Reclaim.process rt w (← ReclaimAccounts.tryFrom w ix.accounts)
    else if discriminator = eventDiscriminator then do
      Runtime.emitEvent ix.accounts
      return w
    else .error .invalidInstructionData

end SolanaGacha
