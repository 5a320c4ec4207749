import StableNet.Wbft.Frame

/-! The voting part of a core, as a machine of its own. Its steps say everything a core can sign or commit while it
handles one event. -/
namespace StableNet.Wbft
open Chain

structure Voter where
  sequence : ℕ
  round : ℕ
  state : State
  preprepare : Option Preprepare
  preparedRound : Option ℕ
  preparedBlock : Option Block
  prepares : MsgSet Prepare
  commits : MsgSet Commit

namespace Voter

def fresh (sequence : ℕ) : Voter := ⟨sequence,0,.acceptRequest,none,none,none,∅,∅⟩

def view (v : Voter) : View := ⟨v.sequence,v.round⟩

def proposal (v : Voter) : Option Block := v.preprepare.map (·.proposal)

/-- The lock as a ROUND-CHANGE announces it. -/
def lock (v : Voter) : Option (ℕ × Hash) :=
  match v.preparedRound, v.preparedBlock with
  | some r, some b => some (r,b.hash)
  | _, _ => none

def signRoundChange (v : Voter) (r : ℕ) : SigningPayload := .roundChange v.sequence r v.lock

def signPrepare (v : Voter) (key : PublicKey) (b : Block) : SigningPayload :=
  .prepare v.sequence v.round b.hash ⟨key,Chain.prepareSeal b.header (uint32 v.round) .prepare⟩

def signCommit (v : Voter) (key : PublicKey) (b : Block) : SigningPayload :=
  .commit v.sequence v.round b.hash ⟨key,Chain.prepareSeal b.header (uint32 v.round) .commit⟩

def accept (v : Voter) (m : Preprepare) : Voter := { v with state := .preprepared, preprepare := some m }

def addPrepare (v : Voter) (m : Prepare) : Voter := { v with prepares := v.prepares.add m.source m }

def lockOn (v : Voter) (b : Block) : Voter :=
  { v with state := .prepared, preparedRound := some v.round, preparedBlock := some b }

def addCommit (v : Voter) (m : Commit) : Voter := { v with commits := v.commits.add m.source m }

def enter (v : Voter) (r : ℕ) : Voter :=
  { v with round := r, state := .acceptRequest, prepares := ∅, commits := ∅ }

/-- A message a voter takes in: it is available, of the voter's view, and names its proposal. -/
structure Takes (avail : Message → Prop) (v : Voter) (m : Message) (digest : Hash) (b : Block) : Prop where
  avail : avail m
  view : m.view=v.view
  proposal : v.proposal = some b
  digest : digest=b.hash

def unlock (v : Voter) : Voter := { v with preparedRound := none, preparedBlock := none }

/-- One event of a core as its voter sees it, with what is signed and what is committed. `orderly`
tells that the event was handled on the head below the voter's sequence, in time and below round
`2^64`; only without it does a ROUND-CHANGE name a round the voter has not entered. A lock on a block
that is `bad` is dropped with the round. -/
inductive Step (orderly : Prop) (bad : Hash → Prop) (avail : Message → Prop) (valSet : ValidatorSet)
    (key : PublicKey) (v : Voter) : List SigningPayload → List Block → Voter → Prop
  | quiet : Step orderly bad avail valSet key v [] [] v
  | propose (b : Block) :
      Step orderly bad avail valSet key v [.preprepare v.sequence v.round b] [] v
  | accept (m : Preprepare) (havail : avail (.preprepare m)) (hview : m.view=v.view)
      (hstate : v.state = .acceptRequest) (hnumber : m.sequence=m.proposal.number)
      (hjustified : 0<uint64 m.round → isJustified m.proposal m.view m.justificationRoundChanges
        m.justificationPrepares valSet.quorumSize=none) :
      Step orderly bad avail valSet key v [v.signPrepare key m.proposal] [] (v.accept m)
  | prepare (m : Prepare) (b : Block) (htakes : v.Takes avail (.prepare m) m.digest b)
      (hstate : v.state = .preprepared) : Step orderly bad avail valSet key v [] [] (v.addPrepare m)
  | lock (m : Prepare) (b : Block) (htakes : v.Takes avail (.prepare m) m.digest b)
      (hstate : v.state = .preprepared) (hquorum : valSet.quorumSize ≤ (v.addPrepare m).prepares.size) :
      Step orderly bad avail valSet key v [v.signCommit key b] [] ((v.addPrepare m).lockOn b)
  | commit (m : Commit) (b : Block) (htakes : v.Takes avail (.commit m) m.digest b)
      (hstate : v.state = .prepared) : Step orderly bad avail valSet key v [] [] (v.addCommit m)
  | decide (m : Commit) (b : Block) (htakes : v.Takes avail (.commit m) m.digest b)
      (hstate : v.state = .prepared) (hquorum : valSet.quorumSize ≤ (v.addCommit m).commits.size)
      (out : List SigningPayload) (hout : out = [] ∨ out = [v.signRoundChange (v.round+1)]) :
      Step orderly bad avail valSet key v out [b] { v.addCommit m with state := .committed }
  | changeRound (r : ℕ) (w : Voter) (hw : w=v ∨ w=v.unlock ∧ ∃ b, v.preparedBlock = some b ∧ bad b.hash)
      (hle : v.round ≤ r)
      (hlt : orderly → valSet.size≠0 → v.round<r) :
      Step orderly bad avail valSet key v [w.signRoundChange r] [] (w.enter r)
  | resend : Step orderly bad avail valSet key v [v.signRoundChange v.round] [] v
  | stray (r : ℕ) (hlt : v.round<r) (h : ¬ orderly) :
      Step orderly bad avail valSet key v [v.signRoundChange r] [] v
  | changeSequence (s : ℕ) (hlt : v.sequence<s) : Step orderly bad avail valSet key v [] [] (fresh s)
  | catchUp (s r : ℕ) (hlt : v.sequence<s) (h : ¬ orderly) :
      Step orderly bad avail valSet key v [(fresh s).signRoundChange r] [] (fresh s)

section Step

variable {orderly : Prop} {bad : Hash → Prop} {avail : Message → Prop} {valSet : ValidatorSet}
  {key : PublicKey} {v v' : Voter} {out : List SigningPayload} {blocks : List Block}

lemma Step.sequence (h : Step orderly bad avail valSet key v out blocks v') :
    v'.sequence=v.sequence ∨ ∃ s, v.sequence<s ∧ v' = fresh s := by
  cases h with
  | changeRound r w hw =>
    rcases hw with rfl | ⟨rfl,_⟩
    · exact .inl rfl
    · exact .inl rfl
  | changeSequence s hlt | catchUp s r hlt => exact .inr ⟨s,hlt,rfl⟩
  | _ => exact .inl rfl

/-- The proposal and the lock are blocks of the sequence. -/
def Numbered (v : Voter) : Prop :=
  ∀ b, v.proposal = some b ∨ v.preparedBlock = some b → b.number=v.sequence

lemma numbered_fresh (s : ℕ) : (fresh s).Numbered := by
  simp [Numbered,fresh,proposal]

lemma Numbered.step (hn : v.Numbered) (h : Step orderly bad avail valSet key v out blocks v') : v'.Numbered := by
  cases h with
  | accept m havail hview hstate hnumber =>
    rintro b (hb | hb)
    · rw [← Option.some.inj hb]
      exact hnumber.symm.trans (congrArg View.sequence hview)
    · exact hn b (.inr hb)
  | lock m b htakes =>
    rintro b' (hb | hb)
    · exact hn b' (.inl hb)
    · rw [← Option.some.inj hb]
      exact hn b (.inl htakes.proposal)
  | changeRound r w hw =>
    rcases hw with rfl | ⟨rfl,_⟩
    · exact hn
    · rintro b (hb | hb)
      · exact hn b (.inl hb)
      · simp [enter,unlock] at hb
  | changeSequence s | catchUp s => exact numbered_fresh s
  | _ => exact hn

end Step

end Voter

/-- A vote names a block of its sequence, and its seal stamps that block with the round. -/
def SigningPayload.Stamped : SigningPayload → Prop
  | .prepare s r d sig => ∃ b : Block, b.hash=d ∧ b.number=s ∧
      sig.preimage = prepareSeal b.header (uint32 r) .prepare
  | .commit s r d sig => ∃ b : Block, b.hash=d ∧ b.number=s ∧
      sig.preimage = prepareSeal b.header (uint32 r) .commit
  | _ => True

lemma Voter.Step.stamped {orderly : Prop} {bad : Hash → Prop} {avail : Message → Prop}
    {valSet : ValidatorSet} {key : PublicKey} {v v' : Voter} {out : List SigningPayload}
    {blocks : List Block} (h : Step orderly bad avail valSet key v out blocks v') (hn : v.Numbered) :
    ∀ p ∈ out, p.Stamped := by
  cases h with
  | accept m havail hview hstate hnumber =>
    simp only [List.mem_singleton,forall_eq]
    exact ⟨m.proposal,rfl,hnumber.symm.trans (congrArg View.sequence hview),rfl⟩
  | lock m b htakes =>
    simp only [List.mem_singleton,forall_eq]
    exact ⟨b,rfl,hn b (.inl htakes.proposal),rfl⟩
  | decide m b htakes hstate hquorum _ hout =>
    rcases hout with rfl | rfl <;> simp [signRoundChange,SigningPayload.Stamped]
  | _ => simp [signRoundChange,SigningPayload.Stamped]

lemma Voter.Step.view_of_commit {orderly : Prop} {bad : Hash → Prop} {avail : Message → Prop}
    {valSet : ValidatorSet} {key : PublicKey} {v v' : Voter} {out : List SigningPayload}
    {blocks : List Block} (h : Step orderly bad avail valSet key v out blocks v') {s r : ℕ} {d : Hash}
    {sig : Seal} (hmem : .commit s r d sig ∈ out) : s=v.sequence ∧ r=v.round := by
  cases h with
  | lock m b htakes =>
    simp only [signCommit,List.mem_singleton,SigningPayload.commit.injEq] at hmem
    exact ⟨hmem.1,hmem.2.1⟩
  | decide m b htakes hstate hquorum _ hout =>
    rcases hout with rfl | rfl <;> simp [signRoundChange] at hmem
  | _ => simp [signPrepare,signRoundChange] at hmem

namespace Core

def voter (c : Core) : Voter :=
  { sequence := c.current.sequence, round := c.current.round, state := c.state
    preprepare := c.current.preprepare, preparedRound := c.current.preparedRound
    preparedBlock := c.current.preparedBlock, prepares := c.current.wbftPrepares
    commits := c.current.wbftCommits }

@[simp] lemma voter_sequence (c : Core) : c.voter.sequence=c.current.sequence := rfl

@[simp] lemma voter_round (c : Core) : c.voter.round=c.current.round := rfl

@[simp] lemma voter_state (c : Core) : c.voter.state=c.state := rfl

@[simp] lemma voter_proposal (c : Core) : c.voter.proposal=c.current.proposal := rfl

lemma voter_view (c : Core) : c.voter.view=c.currentView := rfl

lemma signRoundChange_payload (c : Core) (r : ℕ) :
    (c.signRoundChange r).encodePayloadForSigning = c.voter.signRoundChange r := by
  have hlock : (c.signRoundChange r).prepared = c.voter.lock := by
    unfold SignedRoundChangePayload.prepared Voter.lock
    simp only [signRoundChange,voter]
    obtain hb | ⟨b,hb⟩ := Option.eq_none_or_eq_some c.current.preparedBlock
    · cases c.current.preparedRound <;> simp [hb]
    · cases c.current.preparedRound <;> simp [hb,Block.hash,Header.hash_ne_zero]
  unfold SignedRoundChangePayload.encodePayloadForSigning Voter.signRoundChange
  rw [hlock]
  rfl

end Core

end StableNet.Wbft
