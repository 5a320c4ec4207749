import StableNet.Gov.Agenda

/-! The `GovMinter` contract in both versions. The coin adapter answers as it likes; the native balance of the
contract is part of its state. -/
namespace StableNet.Gov
open Chain (Address Bytes)
open Lib
open Function

inductive MinterAction where
  | mint (beneficiary : Address) (amount : ℕ) (depositId : Bytes)
  | burn (src : Address) (amount : ℕ) (withdrawalId : Bytes)
  | pause
  | unpause
  deriving DecidableEq

structure MintProof where
  beneficiary : Address
  amount : ℕ
  timestamp : ℕ
  depositId : Bytes
  bankReference : Bytes
  memo : Bytes

structure BurnProof where
  src : Address
  amount : ℕ
  timestamp : ℕ
  withdrawalId : Bytes
  referenceId : Bytes
  memo : Bytes

/-- `abi.decode` of the proofs, where it does not revert. -/
structure ProofCodec where
  mintProof : Bytes → Option MintProof
  burnProof : Bytes → Option BurnProof

inductive MinterVersion where
  | v1
  | v2
  deriving DecidableEq

/-- What the adapter answers: the allowance of the contract, and whether minting and burning succeed. -/
structure AdapterAnswers where
  minterAllowance : ℕ
  mints : Bool
  burns : Bool

/-- The functions of the contract, with the value that is sent along and the outcome of the refund. Besides,
coins may be sent to the contract and the adapter may change its answers. -/
inductive MinterOp where
  | proposeMint (proofData : Bytes)
  | proposeBurn (value : ℕ) (proofData : Bytes)
  | proposePause
  | proposeUnpause
  | claimBurnRefund (success : Bool)
  | received (amount : ℕ)
  | adapter (answers : AdapterAnswers)

structure BurnProposalData where
  amount : ℕ
  requester : Address
  deriving DecidableEq

/-- A mint or burn of the adapter, with its deposit or withdrawal. -/
structure Settled where
  ref : Bytes
  account : Address
  amount : ℕ
  deriving DecidableEq

/-- The storage of `GovMinter` with its native balance and the adapter; a proof stands for its hash. A run
leaves behind what was minted, burned, refunded and claimed, the proof of each mint proposal, the quorum at
the time it was made, and the events that name a proposal. -/
structure Minter where
  usedProofHashes : Bytes → Bool
  depositIdToProposalId : Bytes → ℕ
  executedDepositIds : Bytes → Bool
  withdrawalIdToProposalId : Bytes → ℕ
  executedWithdrawalIds : Bytes → Bool
  burnProposals : ℕ → BurnProposalData
  reservedMintAmount : ℕ
  mintProposalAmounts : ℕ → ℕ
  burnBalance : Address → ℕ
  emergencyPaused : Bool
  refundableBalance : Address → ℕ
  balance : ℕ
  answers : AdapterAnswers
  minted : List Settled
  burned : List Settled
  refunds : List (ℕ × BurnProposalData)
  claimed : Address → ℕ
  mintProofs : ℕ → Option MintProof
  mintQuorums : List ℕ
  events : List PauseEvent

def checkedAdd (a b : ℕ) : Except Revert ℕ := if a+b<2^256 then .ok (a+b) else .error .arithmetic

def checkedSub (a b : ℕ) : Except Revert ℕ := if b ≤ a then .ok (a-b) else .error .arithmetic

namespace Minter

/-- The contract at genesis: only the token is written to its storage. -/
def initial (balance : ℕ) (answers : AdapterAnswers) : Minter where
  usedProofHashes _ := false
  depositIdToProposalId _ := 0
  executedDepositIds _ := false
  withdrawalIdToProposalId _ := 0
  executedWithdrawalIds _ := false
  burnProposals _ := ⟨0,0⟩
  reservedMintAmount := 0
  mintProposalAmounts _ := 0
  burnBalance _ := 0
  emergencyPaused := false
  refundableBalance _ := 0
  balance := balance
  answers := answers
  minted := []
  burned := []
  refunds := []
  claimed _ := 0
  mintProofs _ := none
  mintQuorums := []
  events := []

section
variable (codec : ProofCodec) (version : MinterVersion)

def decodeMintProof (data : Bytes) : Except Revert MintProof := do
  require (data ≠ []) (.derived "InvalidProofData")
  match codec.mintProof data with
  | none => .error (.derived "abi.decode")
  | some proof => return proof

def decodeBurnProof (data : Bytes) : Except Revert BurnProof := do
  require (data ≠ []) (.derived "InvalidProofData")
  match codec.burnProof data with
  | none => .error (.derived "abi.decode")
  | some proof => return proof

/-- An id that was not executed and that no open proposal uses. -/
def validateAvailability (gov : Base MinterAction) (executed : Bool) (existingProposalId : ℕ)
    (alreadyUsed inUse : String) : Except Revert Unit := do
  require (!executed) (.derived alreadyUsed)
  require (existingProposalId=0 || !(gov.proposals existingProposalId).status.isOpen) (.derived inUse)

def validateDepositIdAvailability (m : Minter) (gov : Base MinterAction) (depositId : Bytes) : Except Revert Unit :=
  validateAvailability gov (m.executedDepositIds depositId) (m.depositIdToProposalId depositId)
    "DepositIdAlreadyUsed" "DepositIdInUse"

def validateWithdrawalIdAvailability (m : Minter) (gov : Base MinterAction) (withdrawalId : Bytes) :
    Except Revert Unit :=
  validateAvailability gov (m.executedWithdrawalIds withdrawalId) (m.withdrawalIdToProposalId withdrawalId)
    "WithdrawalIdAlreadyUsed" "WithdrawalIdInUse"

/-- The allowance that no open proposal has reserved; the first version has no check of its own against an
underflow. -/
def availableAllowance (m : Minter) : Except Revert ℕ := do
  if version = .v2 then
    require (m.reservedMintAmount < m.answers.minterAllowance) (.derived "InsufficientMinterAllowance")
  checkedSub m.answers.minterAllowance m.reservedMintAmount

/-- `proposeMint` up to the creation of the proposal. -/
def proposeMint (msg : Msg) (gov : Base MinterAction) (proofData : Bytes) (m : Minter) :
    Except Revert (Minter × Next MinterAction) := do
  gov.onlyActiveMember msg.sender
  require (!m.emergencyPaused) (.derived "ContractPaused")
  let proof ← decodeMintProof codec proofData
  require (proof.beneficiary≠0) (.derived "InvalidBeneficiary")
  require (proof.amount≠0) (.derived "InvalidAmount")
  require (proof.depositId ≠ []) (.derived "InvalidDepositId")
  require (proof.bankReference ≠ []) (.derived "InvalidBankReference")
  let available ← m.availableAllowance version
  require (proof.amount ≤ available) (.derived "InsufficientMinterAllowance")
  m.validateDepositIdAvailability gov proof.depositId
  require (!m.usedProofHashes proofData) (.derived "ProofAlreadyUsed")
  return ({ m with
    usedProofHashes := update m.usedProofHashes proofData true
    mintQuorums := gov.quorum::m.mintQuorums },.propose (.mint proof.beneficiary proof.amount proof.depositId))

/-- The rest of `proposeMint`: the amount is reserved and the deposit linked after the proposal has been
created. -/
def reserveMint (proposalId : ℕ) (proof : MintProof) (m : Minter) : Except Revert Minter := do
  let reserved ← checkedAdd m.reservedMintAmount proof.amount
  return { m with
    reservedMintAmount := reserved
    mintProposalAmounts := update m.mintProposalAmounts proposalId proof.amount
    depositIdToProposalId := update m.depositIdToProposalId proof.depositId proposalId
    mintProofs := update m.mintProofs proposalId (some proof) }

/-- `proposeBurn` up to the creation of the proposal; the value is already there. -/
def proposeBurn (msg : Msg) (gov : Base MinterAction) (value : ℕ) (proofData : Bytes) (m : Minter) :
    Except Revert (Minter × Next MinterAction) := do
  gov.onlyActiveMember msg.sender
  require (!m.emergencyPaused) (.derived "ContractPaused")
  let proof ← decodeBurnProof codec proofData
  require (proof.src≠0) (.derived "InvalidTargetAddress")
  require (proof.amount≠0) (.derived "InvalidAmount")
  require (proof.withdrawalId ≠ []) (.derived "InvalidWithdrawalId")
  require (proof.referenceId ≠ []) (.derived "InvalidBankReference")
  require (proof.src=msg.sender) (.derived "BurnFromMustBeProposer")
  require (value=proof.amount) (.derived "BurnAmountMismatch")
  m.validateWithdrawalIdAvailability gov proof.withdrawalId
  require (!m.usedProofHashes proofData) (.derived "ProofAlreadyUsed")
  let credited ← checkedAdd (m.burnBalance msg.sender) value
  return ({ m with
    balance := m.balance+value
    burnBalance := update m.burnBalance msg.sender credited
    usedProofHashes := update m.usedProofHashes proofData true },
    .propose (.burn proof.src proof.amount proof.withdrawalId))

/-- The rest of `proposeBurn`. -/
def linkBurn (proposalId : ℕ) (proof : BurnProof) (m : Minter) : Minter :=
  { m with
    withdrawalIdToProposalId := update m.withdrawalIdToProposalId proof.withdrawalId proposalId
    burnProposals := update m.burnProposals proposalId ⟨proof.amount,proof.src⟩ }

def proposePause (msg : Msg) (gov : Base MinterAction) (m : Minter) : Except Revert (Minter × Next MinterAction) := do
  gov.onlyActiveMember msg.sender
  require (!m.emergencyPaused) (.derived "ContractPaused")
  return (m,.propose .pause)

def proposeUnpause (msg : Msg) (gov : Base MinterAction) (m : Minter) : Except Revert (Minter × Next MinterAction) := do
  gov.onlyActiveMember msg.sender
  require m.emergencyPaused (.derived "ContractNotPaused")
  return (m,.propose .unpause)

/-- `claimBurnRefund` up to the transfer of the coins; the first version does not have it. -/
def claimBurnRefund (msg : Msg) (m : Minter) : Except Revert (Minter × Next MinterAction) := do
  require (version = .v2) (.derived "fallback")
  let amount := m.refundableBalance msg.sender
  require (amount≠0) (.derived "NoRefundAvailable")
  require (amount ≤ m.balance) (.derived "RefundTransferFailed")
  return ({ m with
    refundableBalance := update m.refundableBalance msg.sender 0
    balance := m.balance-amount
    claimed := update m.claimed msg.sender (m.claimed msg.sender+amount) },.callOut)

def executeMint (m : Minter) (beneficiary : Address) (amount : ℕ) (depositId : Bytes) :
    Except Revert (Bool × Minter) := do
  require (!m.emergencyPaused) (.derived "ContractPaused")
  if m.answers.mints then
    return (true,{ m with
      executedDepositIds := update m.executedDepositIds depositId true
      minted := ⟨depositId,beneficiary,amount⟩::m.minted })
  else return (false,m)

/-- The adapter burns coins of the contract, so it has to have them. -/
def safeBurn (m : Minter) (src : Address) (amount : ℕ) (withdrawalId : Bytes) : Except Revert (Bool × Minter) := do
  require (!m.emergencyPaused) (.derived "ContractPaused")
  if m.answers.burns && amount ≤ m.balance then do
    let debited ← checkedSub (m.burnBalance src) amount
    return (true,{ m with
      balance := m.balance-amount
      burnBalance := update m.burnBalance src debited
      executedWithdrawalIds := update m.executedWithdrawalIds withdrawalId true
      burned := ⟨withdrawalId,src,amount⟩::m.burned })
  else return (false,m)

def executePause (gov : Base MinterAction) (m : Minter) : Bool × Minter :=
  (true,{ m with emergencyPaused := true, events := m.events++[.emergencyPaused gov.currentProposalId] })

def executeUnpause (gov : Base MinterAction) (m : Minter) : Bool × Minter :=
  (true,{ m with emergencyPaused := false, events := m.events++[.emergencyUnpaused gov.currentProposalId] })

def executeCustomAction (gov : Base MinterAction) (m : Minter) : MinterAction → Except Revert (Bool × Minter)
  | .mint beneficiary amount depositId => m.executeMint beneficiary amount depositId
  | .burn src amount withdrawalId => m.safeBurn src amount withdrawalId
  | .pause => return m.executePause gov
  | .unpause => return m.executeUnpause gov

def cleanupMintReservation (m : Minter) (proposalId : ℕ) : Except Revert Minter :=
  let reservedAmount := m.mintProposalAmounts proposalId
  if 0<reservedAmount then do
    let reserved ← checkedSub m.reservedMintAmount reservedAmount
    return { m with
      reservedMintAmount := reserved
      mintProposalAmounts := update m.mintProposalAmounts proposalId 0 }
  else return m

/-- The deposit of a burn proposal that did not take effect becomes refundable. -/
def cleanupBurnDeposit (m : Minter) (gov : Base MinterAction) (proposalId : ℕ) : Except Revert Minter :=
  let data := m.burnProposals proposalId
  if data.amount=0 then return m
  else if (gov.proposals proposalId).status ≠ .executed then do
    let burn ← checkedSub (m.burnBalance data.requester) data.amount
    let refundable ← checkedAdd (m.refundableBalance data.requester) data.amount
    return { m with
      burnBalance := update m.burnBalance data.requester burn
      refundableBalance := update m.refundableBalance data.requester refundable
      burnProposals := update m.burnProposals proposalId ⟨0,0⟩
      refunds := (proposalId,data)::m.refunds }
  else return { m with burnProposals := update m.burnProposals proposalId ⟨0,0⟩ }

def onProposalFinalized (gov : Base MinterAction) (proposalId : ℕ) (m : Minter) : Except Revert Minter := do
  let m ← m.cleanupMintReservation proposalId
  if version = .v2 then m.cleanupBurnDeposit gov proposalId else return m

end

end Minter

def govMinter (codec : ProofCodec) (version : MinterVersion) : Derived MinterAction MinterOp Minter where
  reenters := false
  call o msg gov m :=
    match o with
    | .proposeMint proofData => m.proposeMint codec version msg gov proofData
    | .proposeBurn value proofData => m.proposeBurn codec msg gov value proofData
    | .proposePause => m.proposePause msg gov
    | .proposeUnpause => m.proposeUnpause msg gov
    | .claimBurnRefund _ => m.claimBurnRefund version msg
    | .received amount => return ({ m with balance := m.balance+amount },.stop)
    | .adapter answers => return ({ m with answers := answers },.stop)
  resume o proposalId _ _ m :=
    match o with
    | .proposeMint proofData => do m.reserveMint proposalId (← Minter.decodeMintProof codec proofData)
    | .proposeBurn _ proofData => do return m.linkBurn proposalId (← Minter.decodeBurnProof codec proofData)
    | .claimBurnRefund success => do
      require success (.derived "RefundTransferFailed")
      return m
    | _ => return m
  executeCustomAction _ gov k m := m.executeCustomAction gov k
  onMemberAdded _ _ m := return m
  onMemberRemoved _ _ m := return m
  onMemberChanged _ _ _ m := return m
  onProposalFinalized gov proposalId m := m.onProposalFinalized version gov proposalId

end StableNet.Gov
