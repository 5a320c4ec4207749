import StableNet.Wbft.Core

/-! The handlers of a consensus core. `handleEvent` is one turn of the event loop. -/
namespace StableNet.Wbft
open Chain

def uint32 (r : ℕ) : ℕ := uint64 r%2^32

lemma uint32_of_lt {r : ℕ} (h : r<2^32) : uint32 r=r := by
  rw [uint32,uint64_of_lt (by omega),Nat.mod_eq_of_lt h]

namespace MsgSet

variable {α : Type}

def filter (ms : MsgSet α) (p : α → Bool) : MsgSet α :=
  ⟨ms.entries.filter fun e => p e.2,ms.nodupKeys.sublist List.filter_sublist⟩

/-- Keep a message unless the one kept for its source has the same or a later view. -/
def addLatest (common : α → CommonPayload) (ms : MsgSet α) (m : α) : MsgSet α :=
  match ms.lookup (common m).source with
  | none => ms.add (common m).source m
  | some kept =>
    if (common kept).view.cmp (common m).view = .lt then ms.add (common m).source m else ms

end MsgSet

namespace Core

def addToPrepareExtraSeal (c : Core) (m : Prepare) : Core :=
  { c with prepareExtraSeals := c.prepareExtraSeals.addLatest Prepare.toCommonPayload m }

def addToCommitExtraSeal (c : Core) (m : Commit) : Core :=
  { c with commitExtraSeals := c.commitExtraSeals.addLatest Commit.toCommonPayload m }

def addEffectiveSealToExtraSeal (c : Core) : Core :=
  { c with
    prepareExtraSeals := c.current.wbftPrepares.values.foldl
      (MsgSet.addLatest Prepare.toCommonPayload) c.prepareExtraSeals
    commitExtraSeals := c.current.wbftCommits.values.foldl
      (MsgSet.addLatest Commit.toCommonPayload) c.commitExtraSeals }

/-- Delete the extra seals of sequences below `lastNum`. -/
def clearExtraSeals (c : Core) (lastNum : ℕ) : Core :=
  { c with
    prepareExtraSeals := c.prepareExtraSeals.filter fun m => lastNum ≤ m.sequence
    commitExtraSeals := c.commitExtraSeals.filter fun m => lastNum ≤ m.sequence }

/-- The block and the validators against which a late seal is checked. -/
def extraSealTarget (c : Core) : Option Block × Option ValidatorSet :=
  if c.state = .acceptRequest then (c.priorState.proposal,c.priorState.validatorSet)
  else (c.current.proposal,some c.valSet)

def addToExtraSeal (c : Core) (m : Message) : Core × Option Err :=
  match c.extraSealTarget with
  | (none,_) => (c,none)
  | (some _,none) => (c,some .invalidSigner)
  | (some block,some valSet) =>
    match m with
    | .prepare m =>
      if m.digest≠block.hash then (c,some .invalidMessage)
      else if verifySeal valSet block.header (uint32 m.round) .prepare m.prepareSeal m.source≠none
      then (c,some .invalidSigner)
      else (c.addToPrepareExtraSeal m,none)
    | .commit m =>
      if m.digest≠block.hash then (c,some .invalidMessage)
      else if verifySeal valSet block.header (uint32 m.round) .commit m.commitSeal m.source≠none
      then (c,some .invalidSigner)
      else (c.addToCommitExtraSeal m,none)
    | _ => (c,some .invalidExtraSealMessage)

/-- Keep what late votes are checked against. -/
def updatePriorState (c : Core) : Core :=
  { c with priorState :=
      { round := c.current.round
        proposal := c.current.proposal.orElse fun _ => c.priorState.proposal
        validatorSet := some c.valSet } }

/-- The locked block was found bad. -/
def hasBadLock (b : Backend) (c : Core) : Bool :=
  match c.current.preparedBlock with
  | none => false
  | some block => b.hasBadProposal block.hash

/-- Give up a prepared block that is known to be bad. -/
def discardBadLock (b : Backend) (c : Core) : Core :=
  if c.hasBadLock b then
    Core.clearExtraSeals
      { c with current := { c.current with preparedRound := none, preparedBlock := none } }
      (c.current.sequence+1)
  else c

/-- `updateRoundState` for a later round of the current sequence: the lock is kept. -/
def changeRound (b : Backend) (c : Core) (round : ℕ) : Core :=
  let c := c.discardBadLock b
  { c with
    current := newRoundState ⟨c.current.sequence,round⟩ c.current.preprepare
      c.current.preparedRound c.current.preparedBlock c.current.pendingRequest }

/-- `updateRoundState` for the sequence after the head: everything is fresh. -/
def changeSequence (b : Backend) (c : Core) : Core :=
  let c := c.addEffectiveSealToExtraSeal.updatePriorState
  { c with
    current := newRoundState ⟨b.lastProposal.number+1,0⟩ none none none none
    valSet := b.validators b.lastProposal }

/-- The maintenance of the round-change set at the end of `startNewRound`. -/
def resetRoundChanges (b : Backend) (c : Core) (round : ℤ) : Core :=
  if uint64 round=0 then
    Core.clearExtraSeals
      { c with
        wbftPreparedPrepares := []
        roundChangeSet := (RoundChangeSet.newRoundChangeSet c.valSet).newRound round }
      b.lastProposal.number
  else { c with roundChangeSet := (c.roundChangeSet.clearLowerThan round).newRound round }

/-- The part of `startNewRound` after the new round state is in place. -/
def enterRound (b : Backend) (c : Core) (round : ℤ) : Core :=
  let c := { c with valSet := c.valSet.calcProposer b.lastProposer (uint64 c.current.round) }
  ((c.setState .acceptRequest).resetRoundChanges b round).newRoundChangeTimer

/-- Catch up with the chain, or go on to a later round. -/
def startNewRound (b : Backend) (c : Core) (round : ℤ) : Core :=
  if c.current.sequence ≤ b.lastProposal.number then (c.changeSequence b).enterRound b round
  else if b.lastProposal.number+1 = c.current.sequence then
    if round=0 then c
    else if round<c.current.round then c
    else (c.changeRound b round.toNat).enterRound b round
  else c

/-- `New` followed by `Start`: the first call of `startNewRound` finds no round state. -/
def start (address : Address) (blsPublicKey : PublicKey) (b : Backend) : Core :=
  let valSet := b.validators b.lastProposal
  let c : Core :=
    { address, blsPublicKey, state := .acceptRequest, valSet
      current := newRoundState ⟨b.lastProposal.number+1,0⟩ none none none none
      priorState := ⟨0,none,none⟩
      roundChangeSet := RoundChangeSet.newRoundChangeSet valSet
      wbftPreparedPrepares := [], backlogs := ∅, backlogKeys := ∅
      prepareExtraSeals := ∅, commitExtraSeals := ∅, pendingRequests := []
      timers := ⟨false,none,none⟩, posted := [], effects := [] }
  c.enterRound b 0

/-- A ROUND-CHANGE that announces the lock. -/
def signRoundChange (c : Core) (round : ℕ) : RoundChange :=
  let payload : SignedRoundChangePayload :=
    { sequence := c.current.sequence, round, source := 0
      signature := ⟨c.address,.roundChange c.current.sequence round none⟩
      preparedRound := c.current.preparedRound
      preparedDigest := (c.current.preparedBlock.map Block.hash).getD .zero }
  { payload with
    signature := ⟨c.address,payload.encodePayloadForSigning⟩
    preparedBlock := c.current.preparedBlock
    justification := c.wbftPreparedPrepares }

def broadcastRoundChange (c : Core) (round : ℤ) : Core :=
  let c := c.newRetrySendingRoundChangeTimer
  if round<c.current.round then c
  else
    let m := c.signRoundChange round.toNat
    (c.emit (.sign m.encodePayloadForSigning)).broadcast (.roundChange m)

def broadcastNextRoundChange (c : Core) : Core := c.broadcastRoundChange (c.current.round+1)

def signPrepare (c : Core) (proposal : Block) : Prepare :=
  let preimage := Chain.prepareSeal proposal.header (uint32 c.current.round) .prepare
  let payload := SigningPayload.prepare c.current.sequence c.current.round proposal.hash
    ⟨c.blsPublicKey,preimage⟩
  { sequence := c.current.sequence, round := c.current.round, source := c.address
    signature := ⟨c.address,payload⟩, digest := proposal.hash, prepareSeal := ⟨c.blsPublicKey,preimage⟩ }

def broadcastPrepare (c : Core) (proposal : Block) : Core :=
  let m := c.signPrepare proposal
  ((c.emit (.sealed m.prepareSeal.preimage)).emit (.sign m.encodePayloadForSigning)).broadcast
    (.prepare m)

def signCommit (c : Core) (proposal : Block) : Commit :=
  let preimage := Chain.prepareSeal proposal.header (uint32 c.current.round) .commit
  let payload := SigningPayload.commit c.current.sequence c.current.round proposal.hash
    ⟨c.blsPublicKey,preimage⟩
  { sequence := c.current.sequence, round := c.current.round, source := c.address
    signature := ⟨c.address,payload⟩, digest := proposal.hash, commitSeal := ⟨c.blsPublicKey,preimage⟩ }

def broadcastCommit (c : Core) (proposal : Block) : Core :=
  let m := c.signCommit proposal
  ((c.emit (.sealed m.commitSeal.preimage)).emit (.sign m.encodePayloadForSigning)).broadcast
    (.commit m)

def signPreprepare (c : Core) (r : Request) : Preprepare :=
  { sequence := c.current.sequence, round := c.current.round, source := c.address
    signature := ⟨c.address,.preprepare c.current.sequence c.current.round r.proposal⟩
    proposal := r.proposal
    justificationRoundChanges := r.rcMessages.values.map (·.toSignedRoundChangePayload)
    justificationPrepares := r.prepareMessages }

/-- Only the proposer of the current round sends, and only a block of the current sequence. A broadcast fails only for
an empty validator set, in which nobody is the proposer. -/
def sendPreprepareMsg (c : Core) (r : Request) : Core :=
  if c.current.sequence=r.proposal.number ∧ c.valSet.isProposer c.address then
    let m := c.signPreprepare r
    let c := (c.emit (.sign m.encodePayloadForSigning)).broadcast (.preprepare m)
    { c with current := { c.current with preprepareSent := c.current.round } }
  else c

/-- Take over an accepted proposal and vote for it. -/
def acceptPreprepare (c : Core) (m : Preprepare) : Core :=
  let c := { c.newRoundChangeTimer with current := { c.current with preprepare := some m } }
  (c.setState .preprepared).broadcastPrepare m.proposal

def handlePreprepareMsg (b : Backend) (c : Core) (m : Preprepare) : Core × Option Err :=
  if ¬ c.valSet.isProposer m.source then (c,some .notFromProposer)
  else if m.sequence≠m.proposal.number then (c,some .invalidPreparedBlock)
  else if 0<uint64 m.round ∧ isJustified m.proposal m.view m.justificationRoundChanges
      m.justificationPrepares c.valSet.quorumSize≠none then (c,some .invalidPreparedBlock)
  else
    match b.verify m.proposal with
    | some .futureBlock =>
      ({ c with timers := { c.timers with futurePreprepare := some m } },some .futureBlock)
    | some err => (c,some err)
    | none => (if c.state = .acceptRequest then c.acceptPreprepare m else c,none)

def addPrepare (c : Core) (m : Prepare) : Core :=
  { c with current := { c.current with wbftPrepares := c.current.wbftPrepares.add m.source m } }

/-- Lock on the proposal of the current round and keep the PREPAREs that prove it. -/
def lockProposal (c : Core) (proposal : Block) : Core :=
  { c with
    current := { c.current with
      preparedRound := some c.current.round, preparedBlock := some proposal }
    wbftPreparedPrepares := c.current.wbftPrepares.values }

def hasPrepareQuorum (c : Core) : Bool :=
  c.valSet.quorumSize ≤ c.current.wbftPrepares.size ∧ c.state.toNat<State.prepared.toNat

/-- A round that accepts PREPAREs has a proposal; without one the source would panic. -/
def handlePrepareMsg (c : Core) (m : Prepare) : Core × Option Err :=
  match c.current.proposal with
  | none => (c,some .invalidMessage)
  | some proposal =>
    if m.digest≠proposal.hash then (c,some .invalidMessage)
    else if verifySeal c.valSet proposal.header (uint32 m.round) .prepare m.prepareSeal m.source≠none
    then (c,some .invalidMessage)
    else
      let c := c.addPrepare m
      (if c.hasPrepareQuorum then
        ((c.lockProposal proposal).setState .prepared).broadcastCommit proposal
      else c,none)

def addCommit (c : Core) (m : Commit) : Core :=
  { c with current := { c.current with wbftCommits := c.current.wbftCommits.add m.source m } }

/-- The seal of a message with the index of its sealer, nothing if it is no validator. -/
def sealData (c : Core) (source : Address) (s : Seal) : SealData :=
  match c.valSet.indexOf source with
  | some idx => ⟨idx,some s⟩
  | none => ⟨0,none⟩

/-- Hand the proposal to the backend; if it fails, ask for the next round. -/
def commitWBFT (b : Backend) (c : Core) (proposal : Block) : Core :=
  let c := c.setState .committed
  let preparedSeals := c.current.wbftPrepares.values.map fun m => c.sealData m.source m.prepareSeal
  let committedSeals := c.current.wbftCommits.values.map fun m => c.sealData m.source m.commitSeal
  let c := c.emit (.commit proposal preparedSeals committedSeals c.current.round)
  if b.commitFails proposal then c.broadcastNextRoundChange else c

@[inherit_doc handlePrepareMsg]
def handleCommitMsg (b : Backend) (c : Core) (m : Commit) : Core × Option Err :=
  match c.current.proposal with
  | none => (c,some .invalidMessage)
  | some proposal =>
    if m.digest≠proposal.hash then (c,some .invalidMessage)
    else if verifySeal c.valSet proposal.header (uint32 m.round) .commit m.commitSeal m.source≠none
    then (c,some .invalidMessage)
    else
      let c := c.addCommit m
      (if c.valSet.quorumSize ≤ c.current.wbftCommits.size then c.commitWBFT b proposal else c,none)

/-- The prepared round and block a ROUND-CHANGE announces together with its PREPAREs. -/
def announced (m : RoundChange) : Option (ℕ × Block) :=
  match m.preparedRound, m.preparedBlock with
  | some pr, some pb => if m.justification ≠ [] then some (pr,pb) else none
  | _, _ => none

/-- Store a ROUND-CHANGE, unless its prepared block is of another sequence or digest. -/
def addRoundChange (c : Core) (m : RoundChange) : Option Core :=
  if m.round<c.current.round then some c
  else
    match announced m with
    | none => some { c with
        roundChangeSet := c.roundChangeSet.add m.round m none [] c.valSet.quorumSize }
    | some (pr,pb) =>
      if pb.number≠c.current.sequence ∨ pb.hash≠m.preparedDigest then none
      else some { c with
        roundChangeSet := c.roundChangeSet.add m.round m (some (pr,pb)) m.justification
          c.valSet.quorumSize }

/-- The block a proposer proposes in a later round: the highest prepared one, else its own. -/
def proposalForRound (c : Core) : Option Block :=
  (c.roundChangeSet.highestPreparedBlock.lookup (uint64 c.current.round)).orElse
    fun _ => c.current.pendingRequest

/-- The proposer's answer to a quorum of ROUND-CHANGEs for its round. -/
def proposeForRound (c : Core) : Core × Option Err :=
  match c.proposalForRound with
  | none => (c,some .noProposal)
  | some proposal =>
    let round := uint64 c.current.round
    let rcMessages := (c.roundChangeSet.roundChanges.lookup round).getD ∅
    let prepareMessages := (c.roundChangeSet.prepareMessages.lookup round).getD []
    if isJustified proposal c.currentView (rcMessages.values.map (·.toSignedRoundChangePayload))
        prepareMessages c.valSet.quorumSize≠none then (c,none)
    else (c.sendPreprepareMsg ⟨proposal,rcMessages,prepareMessages⟩,none)

/-- Follow `F + 1` others, or propose with a quorum. -/
def handleRoundChangeMsg (b : Backend) (c : Core) (m : RoundChange) : Core × Option Err :=
  match c.addRoundChange m with
  | none => (c,some .preparedBlockMismatch)
  | some c =>
    let round := c.current.round
    if c.valSet.reachesF1 (c.roundChangeSet.higherRoundMessages round) then
      let newRound := c.roundChangeSet.getMinRoundChange round
      ((c.startNewRound b newRound).broadcastRoundChange newRound,none)
    else if c.valSet.quorumSize ≤ c.roundChangeSet.getRCMessagesForGivenRound round ∧
        c.valSet.isProposer c.address ∧ c.current.preprepareSent<round then c.proposeForRound
    else (c,none)

def deliverMessage (b : Backend) (c : Core) : Message → Core × Option Err
  | .preprepare m => c.handlePreprepareMsg b m
  | .prepare m => c.handlePrepareMsg m
  | .commit m => c.handleCommitMsg b m
  | .roundChange m => c.handleRoundChangeMsg b m

def handleDecodedMessage (b : Backend) (c : Core) (m : Message) : Core × Option Err :=
  match c.checkMessage m.code m.view with
  | none => c.deliverMessage b m
  | some .futureMessage => (c.addToBacklog m,some .futureMessage)
  | some .extraSealMessage => c.addToExtraSeal m
  | some err => (c,some err)

/-- The validators a payload is checked against: the prior ones for the last view of the prior
sequence while the core waits for a proposal, the current ones otherwise. -/
def signatureValidators (c : Core) (view : View) : ValidatorSet :=
  if view.cmp c.currentView = .lt ∧ c.state = .acceptRequest ∧
      view.sequence+1 = c.current.sequence ∧ view.round=c.priorState.round then
    c.priorState.validatorSet.getD c.valSet
  else c.valSet

/-- `checkValidatorSignature` of the core. -/
def validateFn (c : Core) (data : SigningPayload) (sig : Signature) (view : View) : Option Address :=
  checkValidatorSignature (c.signatureValidators view) data sig

/-- A ROUND-CHANGE decodes only if its prepared block has the announced digest. -/
def decodes : Message → Bool
  | .roundChange m =>
    match m.preparedBlock with
    | none => true
    | some block => block.hash=m.preparedDigest
  | _ => true

def handleEncodedMsg (b : Backend) (c : Core) (m : Message) : Core × Option Err :=
  if ¬ decodes m then (c,some .invalidMessage)
  else
    match m.verifySignatures c.validateFn with
    | none => (c,some .invalidSigner)
    | some m => c.handleDecodedMessage b m

def handleRequest (c : Core) (proposal : Block) : Core :=
  match c.checkRequestMsg proposal with
  | some .futureMessage => c.storeRequestMsg proposal
  | some _ => c
  | none =>
    let c := { c with current := { c.current with pendingRequest := some proposal } }
    if c.state = .acceptRequest ∧ uint64 c.current.round=0 then
      c.sendPreprepareMsg ⟨proposal,∅,[]⟩
    else c

/-- Enter the next round and announce it. -/
def handleTimeoutMsg (b : Backend) (c : Core) : Core :=
  let nextRound : ℤ := c.current.round+1
  (c.startNewRound b nextRound).broadcastRoundChange nextRound

/-- One turn of the event loop. A timer that fires posts its event. -/
def handleEvent (b : Backend) (c : Core) : Event → Core
  | .message m => (c.handleEncodedMsg b m).1
  | .backlog m => (c.handleDecodedMessage b m).1
  | .request proposal => c.handleRequest proposal
  | .timeout => c.handleTimeoutMsg b
  | .finalCommitted => c.startNewRound b 0
  | .retryTimeout round => c.broadcastRoundChange round
  | .fireRetryTimer =>
    { c with
      timers := { c.timers with retry := none }
      posted := match c.timers.retry with
        | some round => .retryTimeout round::c.posted
        | none => c.posted }
  | .fireFuturePreprepareTimer =>
    { c with
      timers := { c.timers with futurePreprepare := none }
      posted := match c.timers.futurePreprepare with
        | some m => .backlog (.preprepare m)::c.posted
        | none => c.posted }

end Core

end StableNet.Wbft
