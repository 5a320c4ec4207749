import StableNet.Chain.Header
import Mathlib.Data.Int.Notation

/-! The chain configuration and the base fee of a block, as `eip1559.go` computes it. Gas amounts are
`uint64`, base fees are unbounded. -/
namespace StableNet.Chain

/-- The Anzeon part of the configuration that header verification reads. -/
structure AnzeonConfig where
  initValidators : List Address
  initBLSPublicKeys : List PublicKey
  systemContracts : Bool

structure ChainConfig where
  londonBlock : Option ℕ
  shanghaiTime : Option ℕ
  cancunTime : Option ℕ
  anzeon : Option AnzeonConfig

/-- `isBlockForked` and `isTimestampForked`. -/
def isForked (s : Option ℕ) (head : ℕ) : Bool :=
  match s with
  | none => false
  | some s => s ≤ head

namespace ChainConfig

def isLondon (c : ChainConfig) (num : ℕ) : Bool := isForked c.londonBlock num

def isShanghai (c : ChainConfig) (num time : ℕ) : Bool := c.isLondon num && isForked c.shanghaiTime time

def isCancun (c : ChainConfig) (num time : ℕ) : Bool := c.isLondon num && isForked c.cancunTime time

def anzeonEnabled (c : ChainConfig) : Bool := c.anzeon.isSome

end ChainConfig

namespace Params

def gasLimitBoundDivisor : ℕ := 1024

def minGasLimit : ℕ := 5000

def maxGasLimit : ℕ := 0x7fffffffffffffff

def baseFeeChangeDenominator : ℕ := 8

def elasticityMultiplier : ℕ := 2

def initialBaseFee : ℕ := 1000000000

def increasingThreshold : ℕ := 20

def decreasingThreshold : ℕ := 6

def baseFeeChangeRate : ℕ := 2

def minBaseFee : ℕ := 20000000000000

def maxBaseFee : ℕ := 20000000000000000

end Params

/-- The conversion to `int64`. -/
def int64 (n : ℤ) : ℤ := (n+2^63)%2^64-2^63

inductive VerifyError where
  | unknownBlock
  | invalidBlockNumber
  | futureBlock
  | invalidUncleHash
  | invalidDifficulty
  | invalidGasLimit (have_ max : ℕ)
  | shanghaiUnsupported
  | invalidWithdrawalsHash
  | cancunUnsupported
  | invalidExcessBlobGas
  | invalidBlobGasUsed
  | invalidParentBeaconRoot
  | unknownAncestor
  | invalidTimestamp
  | invalidGasUsed (have_ gasLimit : ℕ)
  | invalidBaseFeeBeforeFork (have_ : ℕ)
  | gasLimitOutOfBounds (have_ want : ℕ)
  | gasLimitBelowMinimum (min : ℕ)
  | missingBaseFee
  | missingParentBaseFee
  | invalidBaseFee (have_ want : ℕ)
  | unauthorized
  | stateUnavailable
  | blacklistedSigner (signer : Address)
  | invalidExtraDataFormat
  | emptyPreparedSeals
  | invalidPreparedSeals
  | emptyCommittedSeals
  | invalidCommittedSeals
  | randaoReveal
  | randaoMix (have_ want : ℕ)
  | emptyPrevPreparedSeals
  | invalidPrevPreparedSeals
  | emptyPrevCommittedSeals
  | invalidPrevCommittedSeals
  | gasTipContractUnavailable
  | gasTipMismatch (have_ : Option ℕ) (want : ℕ)
  | epochInfo
  deriving DecidableEq

open Params

def verifyGaslimit (parentGasLimit headerGasLimit : ℕ) : Option VerifyError :=
  let diff := int64 (int64 parentGasLimit-int64 headerGasLimit)
  let diff := if diff<0 then int64 (-diff) else diff
  let limit := parentGasLimit/gasLimitBoundDivisor
  if (limit : ℤ) ≤ diff%2^64 then some (.gasLimitOutOfBounds headerGasLimit parentGasLimit)
  else if headerGasLimit < minGasLimit then some (.gasLimitBelowMinimum minGasLimit)
  else none

def calcBaseFeeDelta (parentBaseFee rate : ℕ) : ℕ :=
  let delta := parentBaseFee*rate/100
  if delta=0 then 1 else delta

def calcAnzeonBaseFee (gasLimit gasUsed baseFee : ℕ) : ℕ :=
  let increasingTarget := gasLimit*increasingThreshold%2^64/100
  let decreasingTarget := gasLimit*decreasingThreshold%2^64/100
  if increasingTarget<gasUsed then
    let fee := baseFee+calcBaseFeeDelta baseFee baseFeeChangeRate
    if maxBaseFee≠0 ∧ maxBaseFee<fee then maxBaseFee else fee
  else if gasUsed<decreasingTarget then
    -- a negative difference is below the minimum as well
    let fee := baseFee-calcBaseFeeDelta baseFee baseFeeChangeRate
    if fee < minBaseFee then minBaseFee else fee
  else baseFee

/-- The rule of EIP-1559. -/
def calcElasticBaseFee (gasLimit gasUsed baseFee : ℕ) : ℕ :=
  let parentGasTarget := gasLimit/elasticityMultiplier
  if gasUsed=parentGasTarget then baseFee
  else if parentGasTarget<gasUsed then
    let delta := (gasUsed-parentGasTarget)*baseFee/parentGasTarget/baseFeeChangeDenominator
    if delta<1 then baseFee+1 else baseFee+delta
  else
    baseFee-(parentGasTarget-gasUsed)*baseFee/parentGasTarget/baseFeeChangeDenominator

/-- The base fee of the block after `parent`; `none` where the source dereferences a nil base fee. -/
def calcBaseFee (config : ChainConfig) (parent : Header) : Option ℕ :=
  if ¬ config.isLondon parent.number then some initialBaseFee
  else parent.baseFee.map fun baseFee =>
    if config.anzeonEnabled then calcAnzeonBaseFee parent.gasLimit parent.gasUsed baseFee
    else calcElasticBaseFee parent.gasLimit parent.gasUsed baseFee

/-- Doubled at the fork. -/
def parentGasLimit (config : ChainConfig) (parent : Header) : ℕ :=
  if config.isLondon parent.number then parent.gasLimit
  else parent.gasLimit*elasticityMultiplier%2^64

def verifyBaseFee (config : ChainConfig) (parent header : Header) : Option VerifyError :=
  match header.baseFee, calcBaseFee config parent with
  | none, _ => some .missingBaseFee
  | some _, none => some .missingParentBaseFee
  | some fee, some expected => if fee=expected then none else some (.invalidBaseFee fee expected)

def verifyEIP1559Header (config : ChainConfig) (parent header : Header) : Option VerifyError :=
  (verifyGaslimit (parentGasLimit config parent) header.gasLimit).or (verifyBaseFee config parent header)

/-- The edges of the band are computed without overflow, and the gas used does not fall between the lower
edge and its truncation. -/
def ExactBand (gasLimit gasUsed : ℕ) : Prop :=
  gasLimit*increasingThreshold<2^64 ∧
    (gasUsed = gasLimit*decreasingThreshold/100 → 100 ∣ gasLimit*decreasingThreshold)

instance (gasLimit gasUsed : ℕ) : Decidable (ExactBand gasLimit gasUsed) := inferInstanceAs (Decidable (_ ∧ _))

/-- How the base fee may move in one block: within its range, by a bounded step, and in the direction that
the gas used has to the band between the two fractions of the gas limit. At the ends of the range it
stays. -/
structure FeeStep (gasLimit gasUsed fee fee' : ℕ) : Prop where
  min_le : minBaseFee ≤ fee'
  le_max : fee' ≤ maxBaseFee
  up_le : fee' ≤ fee+max 1 (fee*baseFeeChangeRate/100)
  down_le : fee ≤ fee'+max 1 (fee*baseFeeChangeRate/100)
  up_iff : ExactBand gasLimit gasUsed →
    (fee<fee' ↔ gasLimit*increasingThreshold<gasUsed*100 ∧ fee < maxBaseFee)
  down_iff : ExactBand gasLimit gasUsed →
    (fee'<fee ↔ gasUsed*100<gasLimit*decreasingThreshold ∧ minBaseFee<fee)

lemma calcBaseFeeDelta_eq_max (fee rate : ℕ) : calcBaseFeeDelta fee rate = max 1 (fee*rate/100) := by
  rw [calcBaseFeeDelta]
  split <;> omega

theorem calcAnzeonBaseFee_cases (gasLimit gasUsed fee : ℕ) :
    (gasLimit*increasingThreshold%2^64/100<gasUsed ∧ calcAnzeonBaseFee gasLimit gasUsed fee =
        min maxBaseFee (fee+calcBaseFeeDelta fee baseFeeChangeRate)) ∨ (¬gasLimit*increasingThreshold%2^64/100<gasUsed ∧
        gasUsed<gasLimit*decreasingThreshold%2^64/100 ∧ calcAnzeonBaseFee gasLimit gasUsed fee =
          max minBaseFee (fee-calcBaseFeeDelta fee baseFeeChangeRate)) ∨
      (¬gasLimit*increasingThreshold%2^64/100<gasUsed ∧
        ¬gasUsed<gasLimit*decreasingThreshold%2^64/100 ∧ calcAnzeonBaseFee gasLimit gasUsed fee=fee) := by
  have hmax : maxBaseFee≠0 := by decide
  unfold calcAnzeonBaseFee
  generalize calcBaseFeeDelta fee baseFeeChangeRate=delta
  dsimp only
  split
  · refine .inl ⟨‹_›,?_⟩
    split <;> omega
  · split
    · refine .inr (.inl ⟨‹_›,‹_›,?_⟩)
      split <;> omega
    · exact .inr (.inr ⟨‹_›,‹_›,rfl⟩)

namespace ExactBand
variable {gasLimit gasUsed : ℕ}

lemma upper_iff (h : ExactBand gasLimit gasUsed) : gasLimit*increasingThreshold%2^64/100<gasUsed ↔
    gasLimit*increasingThreshold<gasUsed*100 := by
  rw [Nat.mod_eq_of_lt h.1]
  omega

lemma lower_iff (h : ExactBand gasLimit gasUsed) : gasUsed<gasLimit*decreasingThreshold%2^64/100 ↔
    gasUsed*100<gasLimit*decreasingThreshold := by
  obtain ⟨hover,hdvd⟩ := h
  have hle : gasLimit*decreasingThreshold ≤ gasLimit*increasingThreshold := Nat.mul_le_mul_left _ (by decide)
  rw [Nat.mod_eq_of_lt (by omega)]
  omega

end ExactBand

lemma calcAnzeonBaseFee_step (gasLimit gasUsed : ℕ) {fee : ℕ} (hmin : minBaseFee ≤ fee) (hmax : fee ≤ maxBaseFee) :
    FeeStep gasLimit gasUsed fee (calcAnzeonBaseFee gasLimit gasUsed fee) := by
  have hdelta := calcBaseFeeDelta_eq_max fee baseFeeChangeRate
  have hbands : gasLimit*decreasingThreshold ≤ gasLimit*increasingThreshold := Nat.mul_le_mul_left _ (by decide)
  obtain ⟨hup,heq⟩ | ⟨hup,hdown,heq⟩ | ⟨hup,hdown,heq⟩ := calcAnzeonBaseFee_cases gasLimit gasUsed fee
  · refine ⟨by omega,by omega,by omega,by omega,fun h => ?_,fun h => ?_⟩
    · rw [h.upper_iff] at hup
      omega
    · rw [h.upper_iff] at hup
      omega
  all_goals
    refine ⟨by omega,by omega,by omega,by omega,fun h => ?_,fun h => ?_⟩
    · rw [h.upper_iff] at hup
      omega
    · rw [h.lower_iff] at hdown
      omega

lemma calcBaseFee_anzeon {config : ChainConfig} {parent : Header} {fee : ℕ}
    (hlondon : config.isLondon parent.number=true) (hanzeon : config.anzeonEnabled=true)
    (h : calcBaseFee config parent = some fee) : ∃ fee₀, parent.baseFee = some fee₀ ∧
      fee = calcAnzeonBaseFee parent.gasLimit parent.gasUsed fee₀ := by
  rw [calcBaseFee,if_neg (not_not.mpr hlondon),Option.map_eq_some_iff] at h
  obtain ⟨fee₀,hparent,heq⟩ := h
  rw [if_pos hanzeon] at heq
  exact ⟨fee₀,hparent,heq.symm⟩

lemma verifyEIP1559Header_eq_none {config : ChainConfig} {parent header : Header}
    (h : verifyEIP1559Header config parent header=none) :
    ∃ fee, header.baseFee = some fee ∧ calcBaseFee config parent = some fee := by
  rw [verifyEIP1559Header,Option.or_eq_none_iff] at h
  have hfee := h.2
  unfold verifyBaseFee at hfee
  generalize calcBaseFee config parent = expected at hfee ⊢
  split at hfee
  · cases hfee
  · cases hfee
  · rename_i fee expected hheader
    exact ⟨fee,hheader,by simpa [eq_comm] using hfee⟩

/-- Along every verified chain from the minimal base fee, every block moves the base fee as it may. -/
theorem baseFee_course {config : ChainConfig} (hlondon : config.londonBlock = some 0)
    (hanzeon : config.anzeonEnabled=true) {genesis : Header} {headers : List Header}
    (hgenesis : genesis.baseFee = some minBaseFee) (hverified : (genesis::headers).IsChain fun parent header =>
      verifyEIP1559Header config parent header=none) :
    (genesis::headers).IsChain fun parent header => ∃ fee fee', parent.baseFee = some fee ∧
      header.baseFee = some fee' ∧ FeeStep parent.gasLimit parent.gasUsed fee fee' := by
  have hforked (n : ℕ) : config.isLondon n=true := by simp [ChainConfig.isLondon,isForked,hlondon]
  -- the induction keeps the base fee of the first header in its range
  have hmain (headers : List Header) (parent : Header) (fee : ℕ) (hfee : parent.baseFee = some fee)
      (hmin : minBaseFee ≤ fee) (hmax : fee ≤ maxBaseFee)
      (hverified : (parent::headers).IsChain fun parent header =>
        verifyEIP1559Header config parent header=none) :
      (parent::headers).IsChain fun parent header => ∃ fee fee', parent.baseFee = some fee ∧
        header.baseFee = some fee' ∧ FeeStep parent.gasLimit parent.gasUsed fee fee' := by
    induction headers generalizing parent fee with
    | nil => exact .singleton _
    | cons header headers ih =>
      rw [List.isChain_cons_cons] at hverified ⊢
      obtain ⟨fee',hheader,hcalc⟩ := verifyEIP1559Header_eq_none hverified.1
      obtain ⟨fee₀,hfee₀,rfl⟩ := calcBaseFee_anzeon (hforked _) hanzeon hcalc
      obtain rfl : fee=fee₀ := Option.some.inj (hfee.symm.trans hfee₀)
      have hstep := calcAnzeonBaseFee_step parent.gasLimit parent.gasUsed hmin hmax
      exact ⟨⟨fee,_,hfee,hheader,hstep⟩,ih header _ hheader hstep.min_le hstep.le_max hverified.2⟩
  exact hmain headers genesis _ hgenesis le_rfl (by decide) hverified

namespace ThreeBlocks

def config : ChainConfig := ⟨some 0,none,none,some ⟨[],[],true⟩⟩

def header (number gasLimit gasUsed baseFee : ℕ) : Header where
  uncleHash := 0
  coinbase := 0
  root := 0
  txHash := 0
  receiptHash := 0
  bloom := 0
  difficulty := wbftDefaultDifficulty
  number
  gasLimit
  gasUsed
  time := number
  mixDigest := 0
  nonce := 0
  baseFee := some baseFee
  withdrawalsHash := none
  blobGasUsed := none
  excessBlobGas := none
  parentBeaconRoot := none
  parentHash := .zero
  extra := .undecodable []

/-- A full block, then one whose gas used lies between the lower edge and its truncation, then an empty one. -/
def blocks : List Header :=
  [header 0 5001 5000 minBaseFee,header 1 5001 300 20400000000000,header 2 5001 0 20400000000000,
    header 3 5001 0 minBaseFee]

theorem blocks_course : blocks.IsChain fun parent header => ∃ fee fee', parent.baseFee = some fee ∧
    header.baseFee = some fee' ∧ FeeStep parent.gasLimit parent.gasUsed fee fee' :=
  baseFee_course (show config.londonBlock = some 0 from rfl) rfl rfl (by decide +kernel)

/-- Block 2 keeps the base fee although its parent used less than the lower fraction of its gas limit. With
a gas limit of `2 ^ 60` the upper edge overflows, and the base fee rises after a block that used less
than the upper fraction. -/
theorem band_not_exact :
    (verifyEIP1559Header config (header 1 5001 300 20400000000000) (header 2 5001 0 20400000000000)=none ∧
      300*100<5001*decreasingThreshold ∧ minBaseFee<20400000000000) ∧
    verifyEIP1559Header config (header 0 (2^60) (10^17) minBaseFee) (header 1 (2^60) 0 20400000000000) =
      none ∧ ¬2^60*increasingThreshold<10^17*100 := by
  decide +kernel

end ThreeBlocks

end StableNet.Chain
