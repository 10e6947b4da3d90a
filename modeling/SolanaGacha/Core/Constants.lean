import SolanaGacha.Lib.Layout

/-!
# Constants, addresses and errors

`gacha-core`'s `constants.rs` and `errors.rs`, and the addresses of the programs that the gacha calls.
-/

namespace SolanaGacha

/-- An account's address, or a VRF or Ed25519 public key. -/
abbrev Pubkey := FixedBytes 32

/-! ## Layout constants -/

def poolVersion : UInt8 := 1
def itemVersion : UInt8 := 1
def pullVersion : UInt8 := 1

def poolPaused : UInt8 := 0
def poolActive : UInt8 := 1
def poolRetired : UInt8 := 2

/-- `b"pool"`, of the pool PDA `[POOL_SEED, authority, id (u64 LE)]`. -/
def poolSeed : List UInt8 := [112, 111, 111, 108]

/-- `b"item"`, of the item PDA `[ITEM_SEED, pool, tier (u8), position (u32 LE)]`. -/
def itemSeed : List UInt8 := [105, 116, 101, 109]

/-- `b"pull"`, of the pull PDA `[PULL_SEED, pool, client_seed]`. -/
def pullSeed : List UInt8 := [112, 117, 108, 108]

/-- `b"__event_authority"`. -/
def eventAuthoritySeed : List UInt8 :=
  [95, 95, 101, 118, 101, 110, 116, 95, 97, 117, 116, 104, 111, 114, 105, 116, 121]

def eventAuthorityBump : UInt8 := 254

/-- The discriminator of the event instruction that the program sends to itself. -/
def eventDiscriminator : UInt8 := 255

def maxTiers : ℕ := 8

/-- Draws per pull. -/
def maxCount : ℕ := 10

def tierLen : ℕ := 8

/-- The length of the fixed header, which the availability index follows. -/
def poolLen : ℕ := 192 + maxTiers * tierLen

def itemLen : ℕ := 72
def outcomeLen : ℕ := 33
def pullLen : ℕ := 120 + maxCount * outcomeLen

def statusPending : UInt8 := 0
def statusSettled : UInt8 := 1

/-- An outcome's tier byte once its item has been delivered. -/
def delivered : UInt8 := 0xff

/-- Positions per block of the index: their tier tags follow the block's Fenwick counts. -/
def inventoryTagsPerBlock : ℕ := 64

def inventoryCountsLen : ℕ := maxTiers * 4
def inventoryBlockLen : ℕ := inventoryCountsLen + inventoryTagsPerBlock

/-- `inventory_space`: the bytes of the index of so many positions. -/
def inventorySpace (positions : UInt32) : ℕ :=
  (positions.toNat + (inventoryTagsPerBlock - 1)) / inventoryTagsPerBlock * inventoryBlockLen

/-! ## Addresses -/

/-- The gacha program. -/
def programId : Pubkey :=
  ⟨[0x34, 0x4b, 0x69, 0xf5, 0x0e, 0xcb, 0x2c, 0x1c, 0x62, 0x67, 0x39, 0x5f, 0xb3, 0x3c, 0x90, 0x83,
    0x0f, 0xfe, 0x58, 0x4b, 0x95, 0x08, 0xf2, 0x75, 0xbf, 0x2c, 0x17, 0x8b, 0x7c, 0x68, 0xa5, 0xff],
    rfl⟩

/-- Metaplex Core. -/
def coreId : Pubkey :=
  ⟨[175, 84, 171, 16, 189, 151, 165, 66, 160, 158, 247, 179, 152, 137, 221, 12, 211, 148, 164, 204,
    233, 223, 166, 205, 201, 126, 190, 45, 35, 91, 167, 72], rfl⟩

/-- The legacy SPL Token program. -/
def tokenId : Pubkey :=
  ⟨[6, 221, 246, 225, 215, 101, 161, 147, 217, 203, 225, 70, 206, 235, 121, 172, 28, 180, 133, 237,
    95, 91, 55, 145, 58, 140, 245, 133, 126, 255, 0, 169], rfl⟩

/-- The associated token account program, which derives vault addresses. -/
def associatedTokenId : Pubkey :=
  ⟨[140, 151, 37, 143, 78, 36, 137, 241, 187, 61, 16, 41, 20, 142, 13, 131, 11, 90, 19, 153, 218,
    255, 16, 132, 4, 142, 123, 216, 219, 233, 248, 89], rfl⟩

/-- The system program, which owns wallets and addresses that nothing was created at. -/
def systemId : Pubkey := ⟨List.replicate 32 0, rfl⟩

/-- The PDA that signs events. -/
def eventAuthority : Pubkey :=
  ⟨[192, 247, 135, 119, 0, 6, 222, 140, 33, 33, 148, 202, 138, 73, 98, 34, 75, 178, 173, 186, 91,
    23, 18, 107, 166, 29, 116, 219, 149, 151, 122, 175], rfl⟩

theorem tokenId_ne_programId : tokenId ≠ programId := by decide
theorem coreId_ne_programId : coreId ≠ programId := by decide
theorem coreId_ne_tokenId : coreId ≠ tokenId := by decide
theorem systemId_ne_programId : systemId ≠ programId := by decide
theorem systemId_ne_tokenId : systemId ≠ tokenId := by decide
theorem systemId_ne_coreId : systemId ≠ coreId := by decide

/-! ## Errors -/

/-- The program's own error codes. -/
inductive GachaError
  | notMutable
  | notSigner
  | invalidAccountOwner
  | invalidAccountLength
  | invalidVersion
  | invalidPoolParams
  | invalidAuthority
  | invalidOperator
  | invalidTokenAddress
  | invalidTier
  | invalidItem
  | invalidCount
  | notNextInQueue
  | invalidPullStatus
  | invalidProof
  | soldOut
  | deadlineNotReached
  | invalidOutcome
  | insufficientBalance
  | invalidBuyer
  | deadlinePassed
  | inventoryChanged
  | invalidQuote
  | quoteExpired
  | invalidAsset
  | invalidPoolStatus
  | pendingPurchases
  | invalidSeeds
  | alreadyInitialized
  | poolMismatch
  | invalidItemCount
  | invalidEventAuthority
  deriving DecidableEq, Repr

/-- How an instruction fails: with a program error, with an abort, or in a program that it calls. -/
inductive Fault
  /-- `ProgramError::Custom`. -/
  | custom (e : GachaError)
  | invalidInstructionData
  | notEnoughAccountKeys
  | arithmeticOverflow
  /-- A panic: an index out of bounds, a division by zero or a failed overflow check. -/
  | panicked
  /-- The runtime or the called program rejected a cross-program invocation. -/
  | rejected
  deriving DecidableEq, Repr

instance : Coe GachaError Fault := ⟨Fault.custom⟩

end SolanaGacha
