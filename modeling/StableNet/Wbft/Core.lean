import StableNet.Wbft.MsgSet

/-! The state of a consensus core that has been started, so that its round state always exists. -/
namespace StableNet.Wbft
open Chain

inductive State where
  | acceptRequest
  | preprepared
  | prepared
  | committed
  deriving DecidableEq

namespace State

/-- The order in which a round passes through the states. -/
def toNat : State → ℕ
  | acceptRequest => 0
  | preprepared => 1
  | prepared => 2
  | committed => 3

end State

/-- The errors of the handlers; the last four are errors of the backend and unnamed ones. -/
inductive Err where
  | notFromProposer
  | futureMessage
  | oldMessage
  | invalidMessage
  | invalidSigner
  | invalidPreparedBlock
  | extraSealMessage
  | invalidExtraSealMessage
  | futureViewTooFar
  | futureBlock
  | verify
  | preparedBlockMismatch
  | noProposal
  deriving DecidableEq

structure Request where
  proposal : Block
  rcMessages : MsgSet RoundChange
  prepareMessages : List Prepare

structure RoundState where
  sequence : ℕ
  round : ℕ
  preprepare : Option Preprepare
  wbftPrepares : MsgSet Prepare
  wbftCommits : MsgSet Commit
  pendingRequest : Option Block
  preparedRound : Option ℕ
  preparedBlock : Option Block
  preprepareSent : ℕ

def newRoundState (view : View) (preprepare : Option Preprepare) (preparedRound : Option ℕ)
    (preparedBlock : Option Block) (pendingRequest : Option Block) : RoundState :=
  ⟨view.sequence,view.round,preprepare,∅,∅,pendingRequest,preparedRound,preparedBlock,0⟩

def RoundState.proposal (s : RoundState) : Option Block := s.preprepare.map (·.proposal)

/-- The last round of the prior sequence, kept to collect seals that arrive late. -/
structure PriorState where
  round : ℕ
  proposal : Option Block
  validatorSet : Option ValidatorSet

/-- The slot of a message in the backlog of its source; the view is truncated to `uint64`. -/
structure BacklogKey where
  code : Code
  sequence : ℕ
  round : ℕ
  deriving DecidableEq

/-- A priority queue; the largest priority is popped first. -/
abbrev Prque (α : Type) := List (α × ℤ)

namespace Prque

/-- Of equal priorities the earliest is taken; the source leaves their order to the heap. -/
def pop {α : Type} : Prque α → Option ((α × ℤ) × Prque α)
  | [] => none
  | x::xs =>
    match pop xs with
    | none => some (x,[])
    | some (y,rest) => if y.2 ≤ x.2 then some (x,xs) else some (y,x::rest)

end Prque

structure SealData where
  sealer : ℕ
  signature : Option Seal

/-- What a core receives on its event channels, and the firing of its own timers. -/
inductive Event where
  | message (m : Message)
  | backlog (m : Message)
  | request (proposal : Block)
  | timeout
  | finalCommitted
  | retryTimeout (round : ℕ)
  | fireRetryTimer
  | fireFuturePreprepareTimer
  deriving DecidableEq

/-- What a core hands to its backend. -/
inductive Effect where
  | sign (payload : SigningPayload)
  | sealed (preimage : SealPreimage)
  | broadcast (m : Message)
  | commit (proposal : Block) (preparedSeals committedSeals : List SealData) (round : ℕ)

/-- The pending timers: the round-change timer, the round a retry is due for, and the proposal that
was too early. -/
structure Timers where
  roundChange : Bool
  retry : Option ℕ
  futurePreprepare : Option Preprepare

structure Core where
  address : Address
  blsPublicKey : PublicKey
  state : State
  valSet : ValidatorSet
  current : RoundState
  priorState : PriorState
  roundChangeSet : RoundChangeSet
  wbftPreparedPrepares : List Prepare
  backlogs : AList fun _ : Address => Prque Message
  backlogKeys : AList fun _ : Address => List BacklogKey
  prepareExtraSeals : MsgSet Prepare
  commitExtraSeals : MsgSet Commit
  pendingRequests : Prque Block
  timers : Timers
  /-- Events posted to the core's own channels and not handled yet. -/
  posted : List Event
  /-- What was handed to the backend while handling the current event, the newest first. -/
  effects : List Effect

/-- The answers of the backend while one event is handled. -/
structure Backend where
  lastProposal : Block
  validators : Block → ValidatorSet
  /-- `Verify`: no error, a block of the future, or another error. -/
  verify : Block → Option Err
  /-- Whether `Commit` fails on a block. -/
  commitFails : Block → Bool
  hasBadProposal : Hash → Bool

/-- The author of the head; the genesis block has none. -/
def Backend.lastProposer (b : Backend) : Address :=
  if 0<b.lastProposal.number then b.lastProposal.header.coinbase else 0

namespace Core

def currentView (c : Core) : View := ⟨c.current.sequence,c.current.round⟩

def emit (c : Core) (e : Effect) : Core := { c with effects := e::c.effects }

/-- `Broadcast` sends nothing for a node that is not in the validator set. -/
def broadcast (c : Core) (m : Message) : Core :=
  { c with effects :=
      if (c.valSet.getByAddress c.address).isSome then .broadcast m::c.effects else c.effects }

def sequenceThreshold : ℕ := 1

def roundThreshold : ℕ := 10

def maxBacklogSizePerValidator : ℕ := 4*(roundThreshold+1)*(sequenceThreshold+1)

def isTooFarFutureMessage (c : Core) (view : View) : Bool :=
  (c.current.sequence<view.sequence ∧
    (c.current.sequence+sequenceThreshold<view.sequence ∨ roundThreshold ≤ view.round)) ∨
  (view.sequence=c.current.sequence ∧ c.current.round+roundThreshold<view.round)

/-- The part of `checkMessage` for messages of the current view. -/
def checkState (c : Core) (code : Code) : Option Err :=
  match c.state with
  | .acceptRequest => if Code.preprepare.toNat<code.toNat then some .futureMessage else none
  | .preprepared =>
    if code.toNat<Code.prepare.toNat then some .invalidMessage
    else if Code.prepare.toNat<code.toNat then some .futureMessage
    else none
  | .prepared =>
    if code = .prepare then some .extraSealMessage
    else if code.toNat<Code.commit.toNat then some .invalidMessage
    else none
  | .committed =>
    if Code.prepare.toNat ≤ code.toNat then some .extraSealMessage else some .invalidMessage

/-- Whether a message is handled, kept or refused. -/
def checkMessage (c : Core) (code : Code) (view : View) : Option Err :=
  if c.isTooFarFutureMessage view then some .futureViewTooFar
  else if code = .roundChange then
    if c.current.sequence<view.sequence then some .futureMessage
    else if view.cmp c.currentView = .lt then some .oldMessage
    else none
  else if view.cmp c.currentView = .gt then some .futureMessage
  else if view.cmp c.currentView = .lt then
    if c.current.sequence = view.sequence+1 ∧ view.round=c.priorState.round ∧
        c.state = .acceptRequest then some .extraSealMessage
    else some .oldMessage
  else c.checkState code

def backlogKey (m : Message) : BacklogKey :=
  ⟨m.code,uint64 m.view.sequence,uint64 m.view.round⟩

/-- `msgPreprepare > msgCommit > msgPrepare`. -/
def msgPriority : Code → ℕ
  | .preprepare => 1
  | .commit => 2
  | .prepare => 3
  | .roundChange => 0

/-- `-int64(k)` of a `uint64` computed with wrap-around. -/
def negInt64 (k : ℕ) : ℤ := RoundChangeSet.toInt ((2^64-k%2^64)%2^64)

/-- Older messages come first. -/
def toNegatePriority (code : Code) (view : View) : ℤ :=
  if code = .roundChange then negInt64 (uint64 view.sequence*1000)
  else negInt64 (uint64 view.sequence*1000+uint64 view.round*10+msgPriority code)

/-- Whether `addToBacklog` queues a message of a source. -/
def admitsBacklog (c : Core) (m : Message) : Bool :=
  (m.source ≠ c.address : Bool) &&
    match c.backlogs.lookup m.source with
    | none => true
    | some backlog =>
      (backlogKey m ∉ (c.backlogKeys.lookup m.source).getD [] ∧
        backlog.length < maxBacklogSizePerValidator : Bool)

def addToBacklog (c : Core) (m : Message) : Core :=
  let backlog := (c.backlogs.lookup m.source).getD []
  let keys := match c.backlogs.lookup m.source with
    | none => []
    | some _ => (c.backlogKeys.lookup m.source).getD []
  { c with
    backlogs := if c.admitsBacklog m then
      c.backlogs.insert m.source ((m,toNegatePriority m.code m.view)::backlog) else c.backlogs
    backlogKeys := if c.admitsBacklog m then
      c.backlogKeys.insert m.source (backlogKey m::keys) else c.backlogKeys }

/-- One source's queue and keys, and the messages posted from it so far. -/
structure Drained where
  queue : Prque Message
  keys : List BacklogKey
  out : List Message

/-- Pop messages until the queue is empty or its first message is still of the future. -/
def drain (c : Core) : ℕ → Drained → Drained
  | 0, d => d
  | fuel+1, d =>
    match d.queue.pop with
    | none => d
    | some ((m,prio),rest) =>
      match c.checkMessage m.code m.view with
      | some .futureMessage => { d with queue := (m,prio)::rest }
      | none | some .extraSealMessage =>
        c.drain fuel ⟨rest,d.keys.erase (backlogKey m),m::d.out⟩
      | some _ => c.drain fuel ⟨rest,d.keys.erase (backlogKey m),d.out⟩

/-- The backlog of a core and the events it has posted. -/
structure BacklogState where
  backlogs : AList fun _ : Address => Prque Message
  backlogKeys : AList fun _ : Address => List BacklogKey
  posted : List Event

/-- The body of the loop of `processBacklog` for one source. -/
def processSource (c : Core) (s : BacklogState) (src : Address) : BacklogState :=
  match c.valSet.getByAddress src with
  | none => { s with backlogs := s.backlogs.erase src, backlogKeys := s.backlogKeys.erase src }
  | some _ =>
    let queue := (s.backlogs.lookup src).getD []
    let d := c.drain queue.length ⟨queue,(s.backlogKeys.lookup src).getD [],[]⟩
    ⟨s.backlogs.insert src d.queue,s.backlogKeys.insert src d.keys,s.posted++d.out.map Event.backlog⟩

def processBacklog (c : Core) : Core :=
  let s := c.backlogs.entries.keys.foldl c.processSource ⟨c.backlogs,c.backlogKeys,c.posted⟩
  { c with backlogs := s.backlogs, backlogKeys := s.backlogKeys, posted := s.posted }

def checkRequestMsg (c : Core) (proposal : Block) : Option Err :=
  if proposal.number<c.current.sequence then some .oldMessage
  else if c.current.sequence<proposal.number then some .futureMessage
  else none

/-- Pop requests until none is left or the first one is still of the future. -/
def drainRequests (c : Core) : ℕ → Prque Block → List Event → Prque Block × List Event
  | 0, q, out => (q,out)
  | fuel+1, q, out =>
    match q.pop with
    | none => (q,out)
    | some ((r,prio),rest) =>
      match c.checkRequestMsg r with
      | some .futureMessage => ((r,prio)::rest,out)
      | some _ => c.drainRequests fuel rest out
      | none => c.drainRequests fuel rest (.request r::out)

def processPendingRequests (c : Core) : Core :=
  let r := c.drainRequests c.pendingRequests.length c.pendingRequests c.posted
  { c with pendingRequests := r.1, posted := r.2 }

def storeRequestMsg (c : Core) (proposal : Block) : Core :=
  { c with pendingRequests :=
      (proposal,negInt64 (uint64 proposal.number))::c.pendingRequests }

/-- Every change of state looks up the backlog; a new round also looks up stored requests. -/
def setState (c : Core) (state : State) : Core :=
  let c := { c with state := state }
  let c := if state = .acceptRequest then c.processPendingRequests else c
  c.processBacklog

def newRoundChangeTimer (c : Core) : Core := { c with timers := ⟨true,none,none⟩ }

def newRetrySendingRoundChangeTimer (c : Core) : Core :=
  { c with timers := { c.timers with retry := some c.current.round } }

end Core

end StableNet.Wbft
