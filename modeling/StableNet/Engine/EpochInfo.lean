import StableNet.Engine.VerifyHeader
import StableNet.Lib.BigEndian
import StableNet.Lib.Except
import StableNet.Lib.SwapOrNot

/-! The epoch info of the next epoch, as `buildEpochInfo` makes it. A panic of the source is an error here. -/
namespace StableNet.Engine
open Chain Wbft Lib

/-- Diligence is in units of this fraction; `2 * diligenceDenominator` is its maximum. -/
def diligenceDenominator : ℕ := 1000000

def defaultDiligence : ℕ := 2*diligenceDenominator*95/100

/-- What epoch construction reads of a state: the members of the `GovValidator` contract, an
enumerable set whose indices fit `uint32`, and their keys. -/
structure GovView where
  candidates : List Address
  nodup : candidates.Nodup
  fits : candidates.length ≤ 2^32
  blsPublicKey : Address → Option PublicKey

inductive EpochError where
  /-- An index out of range or a nil pointer. -/
  | panic
  | divideByZero
  | unknownAncestor
  | extra
  | epochInfo
  | emptySeals
  | zeroValidator
  | noValidProposer
  | sealCount
  | invalidDiligence (d : ℕ)
  | shuffle
  | epochInfoIsNil
  | candidateSizes
  | candidateMismatch
  | diligenceMismatch
  | validatorSizes
  | validatorMismatch
  | blsPublicKeySizes
  | blsPublicKeyMismatch
  deriving DecidableEq

/-- The epoch info of the genesis block: every initial validator is a candidate. -/
def createInitialEpochInfo (anzeon : AnzeonConfig) : Except EpochError EpochInfo :=
  let n := anzeon.initValidators.length
  if anzeon.initBLSPublicKeys.length<n then .error .panic
  else .ok
    { candidates := anzeon.initValidators.map (⟨·,defaultDiligence⟩)
      validators := (List.range n).map (·%2^32)
      blsPublicKeys := anzeon.initBLSPublicKeys.take n }

/-- `GetEpochInfo`: a block is under the last epoch block below it, the genesis block under itself. -/
def getEpochInfoOfHeader (c : Config) (chain : ChainReader) (header : Header) : Option (ℕ × EpochInfo) :=
  if header.number=0 then extractEpochInfo header
  else getEpochInfo c chain header.number header.parentHash []

/-- The signer of a seal at an index into the validators. -/
def getSigner (info : EpochInfo) (idx : ℕ) : Except EpochError Address := do
  let v ← orError .panic info.validators[idx]?
  require (info.getCandidate v≠0) .zeroValidator
  return info.getCandidate v

def getSignerAddress (info : EpochInfo) (signedSeal : Option WBFTAggregatedSeal) :
    Except EpochError (List Address) := do
  let s ← orError .emptySeals signedSeal
  (SealerSet.getSealers s.sealers).mapM (getSigner info)

/-- `m[a] += k` -/
def bump {M : Type} [Add M] (m : Address → M) (a : Address) (k : M) : Address → M :=
  fun b => if b=a then m b+k else m b

/-- The counters of the loop over the blocks of an epoch. The proposers are listed newest first. -/
structure Tally where
  proposedSealsInEpoch : Address → ℕ
  submittedSealsInEpoch : Address → ℕ
  beingProposerCountInEpoch : Address → ℤ
  proposers : List Address
  epochLength : ℕ
  firstProposer : Address
  lastProposer : Address
  validatorsDiff : ℤ

namespace Tally

def empty : Tally := ⟨fun _ => 0,fun _ => 0,fun _ => 0,[],0,0,0,0⟩

def addSigners (t : Tally) (proposer : Address) (signers : List Address) : Tally :=
  { t with
    proposedSealsInEpoch := bump t.proposedSealsInEpoch proposer signers.length
    submittedSealsInEpoch := signers.foldl (fun m addr => bump m addr 1) t.submittedSealsInEpoch }

/-- Count the previous seals of a block; the genesis block has no seals. -/
def countSeals (t : Tally) (info : EpochInfo) (extra : WBFTExtra) (proposer : Address)
    (parentNumber : ℕ) : Except EpochError Tally :=
  if parentNumber=0 then
    .ok { t with beingProposerCountInEpoch := bump t.beingProposerCountInEpoch proposer (-1) }
  else do
    let prepareSigners ← getSignerAddress info extra.prevPreparedSeal
    let commitSigners ← getSignerAddress info extra.prevCommittedSeal
    return (t.addSigners proposer prepareSigners).addSigners proposer commitSigners

/-- What the first block of the epoch, the child of the epoch block, adds. -/
def atBoundary (t : Tally) (it parent : Header) (latest prior : EpochInfo) : Tally :=
  { t with
    firstProposer := it.coinbase
    lastProposer := parent.coinbase
    validatorsDiff := latest.validators.length-prior.validators.length }

end Tally

section Walk

variable (c : Config) (chain : ChainReader) (latestEpoch : ℕ) (latest : EpochInfo)

/-- The epoch info under which the parent of a visited block was sealed. -/
def sealedUnder (parent : Header) : Except EpochError EpochInfo :=
  if latestEpoch=parent.number then
    (orError .epochInfo (getEpochInfoOfHeader c chain parent)).map Prod.snd
  else .ok latest

/-- One turn of the loop; it goes on with the parent. -/
def visit (it : Header) (t : Tally) : Except EpochError (Header × Tally) := do
  let extra ← orError .extra it.extractWBFTExtra
  let parent ← orError .panic (chain.getHeader it.parentHash (predNumber it.number))
  let info ← sealedUnder c chain latestEpoch latest parent
  let t := { t with proposers := t.proposers++[it.coinbase] }
  let t := if latestEpoch=parent.number then t.atBoundary it parent latest info else t
  let t ← t.countSeals info extra it.coinbase parent.number
  return (parent,{ t with epochLength := t.epochLength+1 })

def walk : ℕ → Header → Tally → Except EpochError (Header × Tally)
  | 0, _, _ => .error .panic
  | fuel+1, it, t =>
    if latestEpoch = it.number then .ok (it,t)
    else do
      let (parent,t) ← visit c chain latestEpoch latest it t
      walk fuel parent t

/-- The validators of the epoch before. -/
def priorValidators (it : Header) : Except EpochError (List Address) :=
  if it.number=0 then .ok []
  else do
    let parent ← orError .panic (chain.getHeader it.parentHash (predNumber it.number))
    let info ← orError .epochInfo (getEpochInfoOfHeader c chain parent)
    return info.2.getValidators

end Walk

/-- Count the proposers of the rounds up to the one whose proposer made the block. -/
def countRounds (valSet : ValidatorSet) (lastProposer proposer : Address) :
    ℕ → ℕ → (Address → ℤ) → Except EpochError (Address → ℤ)
  | 0, _, _ => .error .noValidProposer
  | left+1, round, count => do
    let currP ← orError .panic (valSet.calcProposer lastProposer round).proposer
    let count := bump count currP.address 1
    if currP.address=proposer then .ok count
    else countRounds valSet lastProposer proposer left (round+1) count

/-- The proposers of all rounds of the epoch; the blocks' proposers are listed oldest first. -/
def countProposers (valSet : ValidatorSet) : List Address → Address → (Address → ℤ) → Except EpochError (Address → ℤ)
  | [], _, count => .ok count
  | proposer::proposers, lastProposer, count => do
    let count ← countRounds valSet lastProposer proposer valSet.size 0 count
    countProposers valSet proposers proposer count

/-- Go's integer division. -/
def div (a b : ℕ) : Except EpochError ℕ := if b=0 then .error .divideByZero else .ok (a/b)

/-- Where a candidate is a validator, and its entry in the last epoch info. -/
structure CandidateInfo where
  isValidator : Bool
  wasValidator : Bool
  candidate : Candidate

/-- What has been counted for one candidate over an epoch. -/
structure Record where
  epochLength : ℕ
  validators : ℕ
  validatorsDiff : ℤ
  isFirstProposer : Bool
  submitted : ℕ
  proposed : ℕ
  beingProposer : ℤ

namespace Record

variable (r : Record)

/-- The rate at which the epoch counts, and the part of the diligence for submitted seals. -/
def submittedDiligence (ci : CandidateInfo) : Except EpochError (ℕ × ℕ) := do
  let scaled := r.submitted*diligenceDenominator%2^64
  let d ← div scaled (2*r.epochLength%2^64)
  if ¬ ci.isValidator then return (1,scaled/2)
  else if ¬ ci.wasValidator then do
    require (r.submitted ≤ 2*(r.epochLength-1)%2^64) .sealCount
    let d ← div scaled (2*(r.epochLength-1)%2^64)
    return (r.epochLength-1,d)
  else return (r.epochLength,d)

/-- The greatest number of seals the candidate could have put in its blocks, an `int`. -/
def maxProposedSeals (ci : CandidateInfo) : ℤ :=
  let seals := 2*r.validators*r.beingProposer
  if r.isFirstProposer && ci.wasValidator then seals-2*r.validatorsDiff else seals

def proposedDiligence (ci : CandidateInfo) : Except EpochError ℕ :=
  if 0<r.beingProposer then
    div (r.proposed*diligenceDenominator%2^64) (r.maxProposedSeals ci%2^64).toNat
  else .ok diligenceDenominator

/-- The cumulative diligence: a weighted average of the old one and that of the epoch. -/
def cumulative (old rate d : ℕ) : ℕ := (old*(10*r.epochLength-rate)+d*rate)%2^64/10/r.epochLength

def newDiligence (ci : CandidateInfo) : Except EpochError ℕ := do
  let (rate,d) ← r.submittedDiligence ci
  let p ← r.proposedDiligence ci
  return r.cumulative ci.candidate.diligence rate ((d+p)%2^64)

end Record

/-- What is known of the epoch when the candidates are gone through. -/
structure EpochContext where
  latest : EpochInfo
  prior : List Address
  tally : Tally
  beingProposerCount : Address → ℤ

namespace EpochContext

variable (ctx : EpochContext)

/-- The entry of the candidate map; the last of several candidates with one address stays. -/
def candidateInfo (addr : Address) : Option CandidateInfo :=
  (ctx.latest.candidates.reverse.find? (·.addr = addr)).map fun candidate =>
    ⟨addr ∈ ctx.latest.getValidators,addr ∈ ctx.prior,candidate⟩

def record (addr : Address) : Record where
  epochLength := ctx.tally.epochLength
  validators := ctx.latest.validators.length
  validatorsDiff := ctx.tally.validatorsDiff
  isFirstProposer := addr=ctx.tally.firstProposer
  submitted := ctx.tally.submittedSealsInEpoch addr
  proposed := ctx.tally.proposedSealsInEpoch addr
  beingProposer := ctx.beingProposerCount addr

/-- The diligence of a candidate for the next epoch; a new one starts with the default. -/
def diligence (addr : Address) : Except EpochError ℕ :=
  match ctx.candidateInfo addr with
  | none => .ok defaultDiligence
  | some ci => (ctx.record addr).newDiligence ci

def newCandidate (addr : Address) : Except EpochError Candidate := do
  let d ← ctx.diligence addr
  require (d ≤ 2*diligenceDenominator) (.invalidDiligence d)
  return ⟨addr,d⟩

end EpochContext

structure PoweredCandidate where
  addr : Address
  diligence : ℕ
  power : ℕ

/-- `sort.Slice`: which of several orders that fit the comparison results is left to the library. -/
structure SortSlice where
  sort : (ℕ → ℕ → Bool) → List ℕ → List ℕ
  perm : ∀ less xs, (sort less xs).Perm xs

def sortCandidates (s : SortSlice) (candidates : List PoweredCandidate) : List ℕ :=
  let less := fun i j => match candidates[i]?, candidates[j]? with
    | some ci, some cj => if ci.power≠cj.power then cj.power<ci.power else cj.diligence<ci.diligence
    | _, _ => false
  s.sort less (List.range candidates.length)

def shuffleRoundCount : ℕ := 33

/-- A round of the shuffle: the pivot and the bits are read off keccak hashes. -/
def shuffleRound (keccak : Bytes → ℕ) (seed : Bytes) (round : ℕ) : SwapOrNot.Round where
  pivot := BigEndian.decode ((BigEndian.encode 32 (keccak (seed++[BitVec.ofNat 8 round]))).take 8).reverse
  bit position :=
    let window := (BigEndian.encode 4 (position/256)).reverse
    let source := BigEndian.encode 32 (keccak (seed++[BitVec.ofNat 8 round]++window))
    ((source[position%256/8]?).getD 0).getLsbD (position%8)

def computeShuffledIndex (keccak : Bytes → ℕ) (index indexCount seed : ℕ) : Except EpochError ℕ :=
  if indexCount ≤ index then .error .shuffle
  else .ok (SwapOrNot.shuffle indexCount
    ((List.range shuffleRoundCount).map (shuffleRound keccak (BigEndian.encode 32 seed))) index)

/-- The validators as indices into the candidates, in the shuffled order. -/
def decideValidators (keccak : Bytes → ℕ) (s : SortSlice) (mixDigest : ℕ)
    (newStakers : List PoweredCandidate) : Except EpochError (List ℕ) :=
  let indices := sortCandidates s newStakers
  (List.range indices.length).mapM fun i => do
    let shuffledIdx ← computeShuffledIndex keccak i indices.length mixDigest
    let idx ← orError .panic indices[shuffledIdx]?
    return idx%2^32

/-- The validator with its key; one without a key is left out. -/
def withKey (gov : GovView) (candidates : List Candidate) (newVal : ℕ) :
    Except EpochError (Option (ℕ × PublicKey)) := do
  let candidate ← orError .panic candidates[newVal]?
  return (gov.blsPublicKey candidate.addr).map (newVal,·)

section Build

variable (c : Config) (crypto : Crypto) (sorter : SortSlice) (chain : ChainReader)

/-- The first part of `buildEpochInfo`: count the epoch that ends with the header. -/
def epochContext (header : Header) : Except EpochError EpochContext := do
  let (latestEpoch,latest) ← orError .epochInfo (getEpochInfoOfHeader c chain header)
  let (it,tally) ← walk c chain latestEpoch latest (header.number+1) header .empty
  require (latest.getValidators.all fun addr => addr ∈ latest.candidates.map Candidate.addr) .panic
  let prior ← priorValidators c chain it
  require (latest.validators.length ≤ latest.blsPublicKeys.length) .panic
  let valSet := ValidatorSet.newSet latest.getValidators latest.blsPublicKeys (c.getConfig header.number).proposerPolicy
  let count ← countProposers valSet tally.proposers.reverse tally.lastProposer tally.beingProposerCountInEpoch
  return ⟨latest,prior,tally,count⟩

/-- The second part of `buildEpochInfo`: the new candidates and the validators among them. -/
def newEpochInfo (ctx : EpochContext) (mixDigest : ℕ) (gov : GovView) : Except EpochError EpochInfo := do
  let candidates ← gov.candidates.mapM ctx.newCandidate
  let newValidators ← decideValidators crypto.keccak sorter mixDigest (candidates.map fun x => ⟨x.addr,x.diligence,1⟩)
  let keyed ← newValidators.mapM (withKey gov candidates)
  return ⟨candidates,keyed.filterMap (·.map Prod.fst),keyed.filterMap (·.map Prod.snd)⟩

/-- The epoch info to be written in an epoch block; no other block has one. -/
def buildEpochInfo (header : Header) (gov : GovView) : Except EpochError (Option EpochInfo) := do
  let (isEpoch,_) ← orError .divideByZero (c.isEpochBlockNumber header.number)
  if ¬ isEpoch then return none
  else if header.number=0 then do
    let anzeon ← orError .panic chain.config.anzeon
    return some (← createInitialEpochInfo anzeon)
  else do
    let ctx ← epochContext c chain header
    return some (← newEpochInfo crypto sorter ctx header.mixDigest gov)

/-- Up to the end of the shorter list. -/
def matchCandidates : List Candidate → List Candidate → Except EpochError Unit
  | x::xs, y::ys => do
    require (x.addr=y.addr) .candidateMismatch
    require (x.diligence=y.diligence) .diligenceMismatch
    matchCandidates xs ys
  | _, _ => .ok ()

def matchEpochInfo (epoch info : EpochInfo) : Except EpochError Unit := do
  require (epoch.candidates.length = info.candidates.length) .candidateSizes
  matchCandidates epoch.candidates info.candidates
  require (epoch.validators.length = info.validators.length) .validatorSizes
  require (epoch.validators = info.validators) .validatorMismatch
  require (epoch.blsPublicKeys.length = info.blsPublicKeys.length) .blsPublicKeySizes
  require (epoch.blsPublicKeys = info.blsPublicKeys) .blsPublicKeyMismatch

def verifyEpoch (header : Header) (gov : GovView) : Except EpochError Unit := do
  let epoch ← buildEpochInfo c crypto sorter chain header gov
  let extra ← orError .extra header.extractWBFTExtra
  let info ← orError .epochInfoIsNil extra.epochInfo
  let epoch ← orError .panic epoch
  matchEpochInfo epoch info

end Build

lemma matchCandidates_ok {xs ys : List Candidate} (hlen : xs.length=ys.length) {u : Unit} :
    matchCandidates xs ys = .ok u ↔ xs=ys := by
  induction xs generalizing ys with
  | nil =>
    cases ys with
    | nil => simp [matchCandidates]
    | cons y ys => simp at hlen
  | cons x xs ih =>
    cases ys with
    | nil => simp at hlen
    | cons y ys =>
      have hlen : xs.length=ys.length := by simpa using hlen
      have hxy : x=y ↔ x.addr=y.addr ∧ x.diligence=y.diligence := by cases x; cases y; simp
      simp only [matchCandidates,bind_eq_ok,require_eq_ok,decide_eq_true_eq,ih hlen,exists_and_left,
        exists_const,List.cons.injEq,hxy,and_assoc]

lemma matchEpochInfo_ok {epoch info : EpochInfo} {u : Unit} : matchEpochInfo epoch info = .ok u ↔ epoch = info := by
  unfold matchEpochInfo
  simp only [bind_eq_ok,require_eq_ok,decide_eq_true_eq,exists_and_left,exists_const]
  constructor
  · rintro ⟨hlen,_,hc,_,hv,_,hb⟩
    have hc := (matchCandidates_ok hlen).mp hc
    cases epoch
    cases info
    simp_all
  · rintro rfl
    simp [matchCandidates_ok]

/-- An epoch block that was verified has the epoch info that is built from the state. -/
theorem exists_newEpochInfo_of_verifyEpoch {c : Config} {crypto : Crypto} {sorter : SortSlice} {chain : ChainReader}
    {header : Header} {gov : GovView} {u : Unit} (h : verifyEpoch c crypto sorter chain header gov = .ok u)
    (hepoch : c.IsEpochBlock header.number) (hpos : header.number≠0) :
    ∃ ctx info, extractEpochInfo header = some (header.number,info) ∧
      newEpochInfo crypto sorter ctx header.mixDigest gov = .ok info := by
  obtain ⟨last,hlast⟩ := hepoch
  obtain ⟨epoch,hbuild,h⟩ := bind_eq_ok.mp h
  obtain ⟨extra,hextra,h⟩ := bind_eq_ok.mp h
  obtain ⟨info,hinfo,h⟩ := bind_eq_ok.mp h
  obtain ⟨epoch',hepoch',h⟩ := bind_eq_ok.mp h
  obtain rfl := matchEpochInfo_ok.mp h
  unfold buildEpochInfo at hbuild
  obtain ⟨y,hy,hbuild⟩ := bind_eq_ok.mp hbuild
  rw [orError_eq_ok,hlast,Option.some.injEq] at hy
  subst hy
  simp only [not_true_eq_false,if_false,hpos] at hbuild
  obtain ⟨ctx,_,hbuild⟩ := bind_eq_ok.mp hbuild
  obtain ⟨info,hnew,hbuild⟩ := bind_eq_ok.mp hbuild
  cases hbuild
  cases orError_eq_ok.mp hepoch'
  refine ⟨ctx,epoch',?_,hnew⟩
  simp [extractEpochInfo,orError_eq_ok.mp hextra,orError_eq_ok.mp hinfo]

end StableNet.Engine
