import StableNet.Wbft.Voter
import StableNet.Wbft.Network

/-! Every event a core handles is a step of its voter. -/
namespace StableNet.Wbft
open Chain

/-- The seal a vote carries. -/
def SigningPayload.sealedPreimage : SigningPayload → Option SealPreimage
  | .prepare _ _ _ s => some s.preimage
  | .commit _ _ _ s => some s.preimage
  | _ => none

namespace Core

def signedNow (c : Core) : List SigningPayload := c.effects.filterMap Effect.signed

def sealedNow (c : Core) : List SealPreimage := c.effects.filterMap Effect.sealedPreimage

def committedNow (c : Core) : List Block := c.effects.filterMap Effect.committed

/-- Two cores that voted alike and belong to the same node. -/
structure SameVotes (c c' : Core) : Prop where
  signed : c'.signedNow=c.signedNow
  sealed : c'.sealedNow=c.sealedNow
  committed : c'.committedNow=c.committedNow
  address : c'.address=c.address
  key : c'.blsPublicKey=c.blsPublicKey
  holds : ∀ m, c'.Holds m → c.Holds m

/-- The same votes and the same validators. -/
structure Frame (c c' : Core) : Prop extends SameVotes c c' where
  validators : c'.valSet.validators=c.valSet.validators

lemma SameVotes.trans {c c' c'' : Core} (h : SameVotes c c') (h' : SameVotes c' c'') : SameVotes c c'' where
  signed := h'.signed.trans h.signed
  sealed := h'.sealed.trans h.sealed
  committed := h'.committed.trans h.committed
  address := h'.address.trans h.address
  key := h'.key.trans h.key
  holds m hm := h.holds m (h'.holds m hm)

lemma Frame.trans {c c' c'' : Core} (h : Frame c c') (h' : Frame c' c'') : Frame c c'' where
  toSameVotes := h.toSameVotes.trans h'.toSameVotes
  validators := h'.validators.trans h.validators

lemma Frame.refl (c : Core) : Frame c c := ⟨⟨rfl,rfl,rfl,rfl,rfl,fun _ h => h⟩,rfl⟩

lemma setState_frame (c : Core) (st : State) : Frame c (c.setState st) := by
  refine ⟨⟨?_,?_,?_,by simp,by simp,fun m hm => setState_holds hm⟩,by simp⟩ <;>
    simp [signedNow,sealedNow,committedNow]

@[simp] lemma setState_voter (c : Core) (st : State) : (c.setState st).voter = { c.voter with state := st } := by
  simp [voter]

lemma newRoundChangeTimer_frame (c : Core) : Frame c c.newRoundChangeTimer := by
  refine ⟨⟨rfl,rfl,rfl,rfl,rfl,?_⟩,rfl⟩
  rintro m (h | h | ⟨p,hp,_⟩)
  · exact .inl h
  · exact .inr (.inl h)
  · simp [newRoundChangeTimer] at hp

section
variable (b : Backend) (c : Core)
include b c

lemma resetRoundChanges_frame (round : ℤ) : Frame c (c.resetRoundChanges b round) := by
  unfold resetRoundChanges
  split <;> exact ⟨⟨rfl,rfl,rfl,rfl,rfl,fun _ h => h⟩,rfl⟩

@[simp] lemma resetRoundChanges_voter (round : ℤ) : (c.resetRoundChanges b round).voter = c.voter := by
  unfold resetRoundChanges
  split <;> rfl

lemma enterRound_frame (round : ℤ) : Frame c (c.enterRound b round) := by
  let c₁ := { c with valSet := c.valSet.calcProposer b.lastProposer (uint64 c.current.round) }
  have h₁ : Frame c c₁ := ⟨⟨rfl,rfl,rfl,rfl,rfl,fun _ h => h⟩,rfl⟩
  exact ((h₁.trans (setState_frame c₁ _)).trans (resetRoundChanges_frame b _ round)).trans
    (newRoundChangeTimer_frame _)

@[simp] lemma enterRound_voter (round : ℤ) :
    (c.enterRound b round).voter = { c.voter with state := .acceptRequest } := by
  change ((Core.setState _ _).resetRoundChanges b round).voter = _
  rw [resetRoundChanges_voter,setState_voter]
  rfl

lemma changeSequence_sameVotes : SameVotes c (c.changeSequence b) := ⟨rfl,rfl,rfl,rfl,rfl,fun _ h => h⟩

lemma discardBadLock_frame : Frame c (c.discardBadLock b) := by
  unfold discardBadLock
  split <;> exact ⟨⟨rfl,rfl,rfl,rfl,rfl,fun _ h => h⟩,rfl⟩

lemma discardBadLock_voter : (c.discardBadLock b).voter = if c.hasBadLock b then c.voter.unlock else c.voter := by
  unfold discardBadLock
  split <;> rfl

end

lemma exists_of_hasBadLock {b : Backend} {c : Core} (h : c.hasBadLock b=true) :
    ∃ p, c.voter.preparedBlock = some p ∧ b.hasBadProposal p.hash=true := by
  unfold hasBadLock at h
  split at h
  · simp at h
  · exact ⟨_,‹_›,h⟩

/-- What `startNewRound` does to the voter: it enters the sequence after the head, a later round of
its own sequence, or nothing at all. -/
theorem startNewRound_cases (b : Backend) (c : Core) (round : ℤ) :
    (c.current.sequence ≤ b.lastProposal.number ∧ SameVotes c (c.startNewRound b round) ∧
      (c.startNewRound b round).voter = .fresh (b.lastProposal.number+1) ∧
      (c.startNewRound b round).valSet.validators = (b.validators b.lastProposal).validators) ∨
    (b.lastProposal.number+1 = c.current.sequence ∧ round≠0 ∧ (c.current.round : ℤ) ≤ round ∧
      Frame c (c.startNewRound b round) ∧
      (c.startNewRound b round).voter = (c.discardBadLock b).voter.enter round.toNat) ∨ (c.startNewRound b round=c ∧
      ¬ (b.lastProposal.number+1 = c.current.sequence ∧ round≠0 ∧ (c.current.round : ℤ) ≤ round)) := by
  unfold startNewRound
  split
  · refine .inl ⟨‹_›,?_,?_,?_⟩
    · exact (c.changeSequence_sameVotes b).trans (enterRound_frame b _ round).toSameVotes
    · rw [enterRound_voter]; rfl
    · exact (enterRound_frame b _ round).validators
  · split
    · split
      · exact .inr (.inr ⟨rfl,by simp_all⟩)
      · split
        · exact .inr (.inr ⟨rfl,by rintro ⟨-,-,h⟩; omega⟩)
        · refine .inr (.inl ⟨‹_›,‹_›,by omega,?_,?_⟩)
          · have h₁ : Frame (c.discardBadLock b) (c.changeRound b round.toNat) :=
              ⟨⟨rfl,rfl,rfl,rfl,rfl,fun _ h => h⟩,rfl⟩
            exact ((discardBadLock_frame b c).trans h₁).trans (enterRound_frame b _ round)
          · rw [enterRound_voter]; rfl
    · exact .inr (.inr ⟨rfl,fun h => by simp_all⟩)

/-- A core that has signed one more payload, and its seal, and did nothing else. -/
structure Signs (c : Core) (p : SigningPayload) (c' : Core) : Prop where
  signed : c'.signedNow=p::c.signedNow
  sealed : c'.sealedNow = p.sealedPreimage.toList++c.sealedNow
  committed : c'.committedNow=c.committedNow
  address : c'.address=c.address
  key : c'.blsPublicKey=c.blsPublicKey
  holds : ∀ m, c'.Holds m → c.Holds m
  validators : c'.valSet.validators=c.valSet.validators
  voter : c'.voter=c.voter

lemma broadcast_frame (c : Core) (m : Message) : Frame c (c.broadcast m) := by
  refine ⟨⟨?_,?_,?_,rfl,rfl,fun _ h => h⟩,rfl⟩ <;>
  · simp only [signedNow,sealedNow,committedNow,broadcast]
    split <;> rfl

lemma Signs.broadcast {c c' : Core} {p : SigningPayload} (h : Signs c p c') (m : Message) :
    Signs c p (c'.broadcast m) := by
  have hf := broadcast_frame c' m
  exact ⟨hf.signed.trans h.signed,hf.sealed.trans h.sealed,hf.committed.trans h.committed,
    h.address,h.key,h.holds,h.validators,h.voter⟩

lemma signs_broadcastPrepare (c : Core) (proposal : Block) :
    Signs c (c.voter.signPrepare c.blsPublicKey proposal) (c.broadcastPrepare proposal) := by
  apply Signs.broadcast
  exact ⟨rfl,rfl,rfl,rfl,rfl,fun _ h => h,rfl,rfl⟩

lemma signs_broadcastCommit (c : Core) (proposal : Block) :
    Signs c (c.voter.signCommit c.blsPublicKey proposal) (c.broadcastCommit proposal) := by
  apply Signs.broadcast
  exact ⟨rfl,rfl,rfl,rfl,rfl,fun _ h => h,rfl,rfl⟩

lemma newRetrySendingRoundChangeTimer_frame (c : Core) :
    Frame c c.newRetrySendingRoundChangeTimer := ⟨⟨rfl,rfl,rfl,rfl,rfl,fun _ h => h⟩,rfl⟩

theorem broadcastRoundChange_cases (c : Core) (round : ℤ) :
    (round<c.current.round ∧ Frame c (c.broadcastRoundChange round) ∧
      (c.broadcastRoundChange round).voter = c.voter) ∨ ((c.current.round : ℤ) ≤ round ∧
      Signs c (c.voter.signRoundChange round.toNat) (c.broadcastRoundChange round)) := by
  unfold broadcastRoundChange
  dsimp only
  split
  · exact .inl ⟨‹_›,newRetrySendingRoundChangeTimer_frame c,rfl⟩
  · rename_i h
    refine .inr ⟨not_lt.mp h,?_⟩
    apply Signs.broadcast
    rw [signRoundChange_payload]
    exact ⟨rfl,rfl,rfl,rfl,rfl,fun _ h => h,rfl,rfl⟩

lemma sendPreprepareMsg_cases (c : Core) (r : Request) : c.sendPreprepareMsg r=c ∨
      Signs c (.preprepare c.voter.sequence c.voter.round r.proposal) (c.sendPreprepareMsg r) := by
  unfold sendPreprepareMsg
  split
  · right
    have h : Signs c (.preprepare c.voter.sequence c.voter.round r.proposal)
        ((c.emit (.sign (c.signPreprepare r).encodePayloadForSigning)).broadcast
          (.preprepare (c.signPreprepare r))) := by
      apply Signs.broadcast
      exact ⟨rfl,rfl,rfl,rfl,rfl,fun _ h => h,rfl,rfl⟩
    exact ⟨h.signed,h.sealed,h.committed,h.address,h.key,h.holds,h.validators,h.voter⟩
  · exact .inl rfl

/-- Handling an event took the voter of `c` one step to that of `c'`. -/
structure Simulates (orderly : Prop) (avail : Message → Prop) (b : Backend) (c c' : Core) : Prop where
  step : Voter.Step orderly (b.hasBadProposal ·=true) avail c.valSet c.blsPublicKey c.voter c'.signedNow
    c'.committedNow c'.voter
  sealed : c'.sealedNow = c'.signedNow.filterMap SigningPayload.sealedPreimage
  holds : ∀ m, c'.Holds m → avail m
  address : c'.address=c.address
  key : c'.blsPublicKey=c.blsPublicKey
  validators :
    c'.current.sequence=c.current.sequence ∧ c'.valSet.validators=c.valSet.validators ∨
    c'.current.sequence = b.lastProposal.number+1 ∧
      c'.valSet.validators = (b.validators b.lastProposal).validators

section Simulation

variable {orderly : Prop} {avail : Message → Prop} {b : Backend} {c c' c'' : Core}
  {p : SigningPayload}

lemma sequence_eq_of_voter_eq (h : c'.voter=c.voter) : c'.current.sequence=c.current.sequence :=
  congrArg Voter.sequence h

section
variable (h₀ : c.effects = [])
include h₀

lemma Simulates.quiet (hh : ∀ m, c.Holds m → avail m) (hf : Frame c c')
    (hv : c'.voter=c.voter) : Simulates orderly avail b c c' where
  step := by
    rw [hf.signed,hf.committed,hv]
    simpa [signedNow,committedNow,h₀] using Voter.Step.quiet
  sealed := by rw [hf.signed,hf.sealed]; simp [signedNow,sealedNow,h₀]
  holds m hm := hh m (hf.holds m hm)
  address := hf.address
  key := hf.key
  validators := .inl ⟨sequence_eq_of_voter_eq hv,hf.validators⟩

theorem Simulates.signs (hh : ∀ m, c.Holds m → avail m)
    (hf : Frame c c') (hs : Signs c' p c'') (hseq : c'.current.sequence=c.current.sequence)
    (hstep : Voter.Step orderly (b.hasBadProposal ·=true) avail c.valSet c.blsPublicKey c.voter [p] [] c'.voter) :
    Simulates orderly avail b c c'' where
  step := by
    rw [hs.signed,hf.signed,hs.committed,hf.committed,hs.voter]
    simpa [signedNow,committedNow,h₀] using hstep
  sealed := by
    rw [hs.signed,hf.signed,hs.sealed,hf.sealed]
    cases hp : p.sealedPreimage <;> simp [signedNow,sealedNow,h₀,hp]
  holds m hm := hh m (hf.holds m (hs.holds m hm))
  address := hs.address.trans hf.address
  key := hs.key.trans hf.key
  validators := .inl ⟨(sequence_eq_of_voter_eq hs.voter).trans hseq,hs.validators.trans hf.validators⟩

theorem Simulates.held (hh : ∀ m, c'.Holds m → avail m) (he : c'.effects=c.effects) (ha : c'.address=c.address)
    (hk : c'.blsPublicKey=c.blsPublicKey) (hval : c'.valSet=c.valSet)
    (hv : c'.voter=c.voter) : Simulates orderly avail b c c' where
  step := by
    rw [hv]
    simpa [signedNow,committedNow,he,h₀] using Voter.Step.quiet
  sealed := by simp [signedNow,sealedNow,he,h₀]
  holds := hh
  address := ha
  key := hk
  validators := .inl ⟨sequence_eq_of_voter_eq hv,by rw [hval]⟩

lemma Simulates.refl (hh : ∀ m, c.Holds m → avail m) : Simulates orderly avail b c c := .quiet h₀ hh (.refl c) rfl

end

theorem checkMessage_eq_none {code : Code} {view : View} (hc : code ≠ .roundChange)
    (h : c.checkMessage code view=none) : view=c.currentView ∧
      (c.state = .acceptRequest ∧ code = .preprepare ∨ c.state = .preprepared ∧ code = .prepare ∨
        c.state = .prepared ∧ code = .commit) := by
  unfold checkMessage at h
  rw [if_neg hc] at h
  split at h
  · simp at h
  cases hcmp : view.cmp c.currentView with
  | lt =>
    simp only [hcmp,reduceCtorEq,if_false,if_true] at h
    split at h <;> simp at h
  | eq =>
    refine ⟨View.cmp_eq_eq.mp hcmp,?_⟩
    simp only [hcmp,reduceCtorEq,if_false,checkState] at h
    cases hst : c.state <;> cases hcode : code <;> simp_all [Code.toNat]
  | gt => simp [hcmp] at h

section
variable (h₀ : c.effects = []) (hh : ∀ m, c.Holds m → avail m)
include h₀ hh

lemma acceptPreprepare_simulates {m : Preprepare} (havail : avail (.preprepare m)) (hview : m.view=c.currentView)
    (hstate : c.state = .acceptRequest) (hnumber : m.sequence=m.proposal.number)
    (hjustified : 0<uint64 m.round → isJustified m.proposal m.view m.justificationRoundChanges
      m.justificationPrepares c.valSet.quorumSize=none) : Simulates orderly avail b c (c.acceptPreprepare m) := by
  let c₁ : Core := { c.newRoundChangeTimer with current := { c.current with preprepare := some m } }
  have h₁ : Frame c c₁ := by
    have := newRoundChangeTimer_frame c
    exact ⟨⟨this.signed,this.sealed,this.committed,this.address,this.key,this.holds⟩,this.validators⟩
  have hv : (c₁.setState .preprepared).voter = c.voter.accept m := by
    rw [setState_voter]; rfl
  have hs := signs_broadcastPrepare (c₁.setState .preprepared) m.proposal
  have hp : (c₁.setState .preprepared).voter.signPrepare (c₁.setState .preprepared).blsPublicKey
      m.proposal = c.voter.signPrepare c.blsPublicKey m.proposal := by
    rw [hv,setState_blsPublicKey]; rfl
  rw [hp] at hs
  refine .signs h₀ hh (h₁.trans (setState_frame c₁ _)) hs (by simp [c₁]) ?_
  rw [hv]
  exact .accept m havail hview hstate hnumber hjustified

lemma handlePreprepareMsg_simulates {m : Preprepare} (havail : avail (.preprepare m)) (hview : m.view=c.currentView) :
    Simulates orderly avail b c (c.handlePreprepareMsg b m).1 := by
  unfold handlePreprepareMsg
  split
  · exact .refl h₀ hh
  split
  · exact .refl h₀ hh
  rename_i hnumber
  split
  · exact .refl h₀ hh
  rename_i hjustified
  split
  · refine .held h₀ ?_ rfl rfl rfl rfl rfl
    rintro x (hx | hx | ⟨p,hp,rfl⟩)
    · exact hh x (.inl hx)
    · exact hh x (.inr (.inl hx))
    · obtain rfl : m=p := by simpa using hp
      exact havail
  · exact .refl h₀ hh
  · dsimp only
    split
    · rename_i hstate
      refine acceptPreprepare_simulates h₀ hh havail hview hstate (not_not.mp hnumber) fun hr => ?_
      by_contra hne
      exact hjustified ⟨hr,hne⟩
    · exact .refl h₀ hh

lemma handlePrepareMsg_simulates
    {m : Prepare} (havail : avail (.prepare m)) (hview : m.view=c.currentView) (hstate : c.state = .preprepared) :
    Simulates orderly avail b c (c.handlePrepareMsg m).1 := by
  unfold handlePrepareMsg
  split
  · exact .refl h₀ hh
  rename_i proposal hproposal
  split
  · exact .refl h₀ hh
  rename_i hdigest
  split
  · exact .refl h₀ hh
  have htakes : c.voter.Takes avail (.prepare m) m.digest proposal := ⟨havail,hview,hproposal,not_not.mp hdigest⟩
  have hadd : Frame c (c.addPrepare m) := ⟨⟨rfl,rfl,rfl,rfl,rfl,fun _ h => h⟩,rfl⟩
  dsimp only
  split
  · rename_i hquorum
    simp only [hasPrepareQuorum,decide_eq_true_eq] at hquorum
    have hlock : Frame (c.addPrepare m) ((c.addPrepare m).lockProposal proposal) :=
      ⟨⟨rfl,rfl,rfl,rfl,rfl,fun _ h => h⟩,rfl⟩
    have hf := (hadd.trans hlock).trans (setState_frame _ .prepared)
    have hv : (((c.addPrepare m).lockProposal proposal).setState .prepared).voter =
        (c.voter.addPrepare m).lockOn proposal := by rw [setState_voter]; rfl
    have hs := signs_broadcastCommit (((c.addPrepare m).lockProposal proposal).setState .prepared)
      proposal
    have hp : (((c.addPrepare m).lockProposal proposal).setState .prepared).voter.signCommit
        (((c.addPrepare m).lockProposal proposal).setState .prepared).blsPublicKey proposal =
        c.voter.signCommit c.blsPublicKey proposal := by rw [hv,setState_blsPublicKey]; rfl
    rw [hp] at hs
    refine .signs h₀ hh hf hs (by simp [lockProposal,addPrepare]) ?_
    rw [hv]
    exact .lock m proposal htakes hstate hquorum.1
  · refine ⟨?_,?_,fun x hx => hh x (hadd.holds x hx),rfl,rfl,.inl ⟨rfl,rfl⟩⟩
    · rw [hadd.signed,hadd.committed,show (c.addPrepare m).voter = c.voter.addPrepare m from rfl]
      simpa [signedNow,committedNow,h₀] using Voter.Step.prepare m proposal htakes hstate
    · rw [hadd.signed,hadd.sealed]
      simp [signedNow,sealedNow,h₀]

lemma handleCommitMsg_simulates
    {m : Commit} (havail : avail (.commit m)) (hview : m.view=c.currentView) (hstate : c.state = .prepared) :
    Simulates orderly avail b c (c.handleCommitMsg b m).1 := by
  unfold handleCommitMsg
  split
  · exact .refl h₀ hh
  rename_i proposal hproposal
  split
  · exact .refl h₀ hh
  rename_i hdigest
  split
  · exact .refl h₀ hh
  have htakes : c.voter.Takes avail (.commit m) m.digest proposal := ⟨havail,hview,hproposal,not_not.mp hdigest⟩
  have hadd : Frame c (c.addCommit m) := ⟨⟨rfl,rfl,rfl,rfl,rfl,fun _ h => h⟩,rfl⟩
  have hvadd : (c.addCommit m).voter = c.voter.addCommit m := rfl
  dsimp only
  split
  · rename_i hquorum
    have hset := hadd.trans (setState_frame (c.addCommit m) .committed)
    have hvset : ((c.addCommit m).setState .committed).voter =
        { c.voter.addCommit m with state := .committed } := by rw [setState_voter,hvadd]
    -- the block is committed first, a failure then asks for the next round
    obtain ⟨c₁,hc₁,hdecide⟩ : ∃ c₁, c₁.voter = { c.voter.addCommit m with state := .committed } ∧
        c₁.signedNow = [] ∧ c₁.sealedNow = [] ∧ c₁.committedNow = [proposal] ∧
        c₁.address=c.address ∧ c₁.blsPublicKey=c.blsPublicKey ∧ (∀ m, c₁.Holds m → c.Holds m) ∧
        c₁.valSet.validators=c.valSet.validators ∧
        (c.addCommit m).commitWBFT b proposal =
          if b.commitFails proposal then c₁.broadcastNextRoundChange else c₁ := by
      refine ⟨_,?_,?_,?_,?_,?_,?_,?_,?_,rfl⟩
      · exact hvset
      · have := hset.signed; simpa [signedNow,emit,Effect.signed,h₀] using this
      · have := hset.sealed; simpa [sealedNow,emit,Effect.sealedPreimage,h₀] using this
      · have := hset.committed; simpa [committedNow,emit,Effect.committed,h₀] using this
      · exact hset.address
      · exact hset.key
      · exact hset.holds
      · exact hset.validators
    obtain ⟨hsig,hseal,hcom,haddr,hkey,hholds,hvals,heq⟩ := hdecide
    rw [heq]
    have hseq : c₁.current.sequence=c.current.sequence := congrArg Voter.sequence hc₁
    have hround : c₁.current.round=c.current.round := congrArg Voter.round hc₁
    split
    · rcases c₁.broadcastRoundChange_cases (c₁.current.round+1) with ⟨hlt,_⟩ | ⟨_,hs⟩
      · omega
      · refine ⟨?_,?_,fun x hx => hh x (hholds x (hs.holds x hx)),hs.address.trans haddr,
          hs.key.trans hkey,.inl ⟨(sequence_eq_of_voter_eq hs.voter).trans hseq,hs.validators.trans hvals⟩⟩
        · have hp : c₁.voter.signRoundChange ((c₁.current.round : ℤ)+1).toNat =
              c.voter.signRoundChange (c.voter.round+1) := by
            rw [hc₁,hround]; rfl
          have := hs.signed
          have hcom' := hs.committed
          rw [hsig,hp] at this
          unfold broadcastNextRoundChange
          rw [this,hcom',hcom,hs.voter,hc₁]
          exact .decide m proposal htakes hstate hquorum _ (.inr rfl)
        · unfold broadcastNextRoundChange
          rw [hs.sealed,hs.signed,hsig,hseal]
          rfl
    · refine ⟨?_,by rw [hsig,hseal]; rfl,fun x hx => hh x (hholds x hx),haddr,hkey,.inl ⟨hseq,hvals⟩⟩
      rw [hsig,hcom,hc₁]
      exact .decide m proposal htakes hstate hquorum _ (.inl rfl)
  · refine ⟨?_,?_,fun x hx => hh x (hadd.holds x hx),rfl,rfl,.inl ⟨rfl,rfl⟩⟩
    · rw [hadd.signed,hadd.committed,hvadd]
      simpa [signedNow,committedNow,h₀] using Voter.Step.commit m proposal htakes hstate
    · rw [hadd.signed,hadd.sealed]
      simp [signedNow,sealedNow,h₀]

end

lemma Simulates.of_same (c' : Core) (hval : c'.valSet=c.valSet)
    (hk : c'.blsPublicKey=c.blsPublicKey) (ha : c'.address=c.address) (hv : c'.voter=c.voter)
    (h : Simulates orderly avail b c' c'') : Simulates orderly avail b c c'' where
  step := by rw [← hval,← hk,← hv]; exact h.step
  sealed := h.sealed
  holds := h.holds
  address := h.address.trans ha
  key := h.key.trans hk
  validators := by rw [← sequence_eq_of_voter_eq hv,← hval]; exact h.validators

/-- Entering a round and asking the others to follow. Only on the head below the core's sequence are
the two about the same view. -/
theorem newRound_simulates (h₀ : c.effects = []) (hh : ∀ m, c.Holds m → avail m) (r : ℤ)
    (hhead : orderly → b.lastProposal.number+1 = c.current.sequence)
    (hne : orderly → c.valSet.size≠0 → r≠c.current.round) :
    Simulates orderly avail b c ((c.startNewRound b r).broadcastRoundChange r) := by
  rcases c.startNewRound_cases b r with ⟨hle,hsv,hv,hvals⟩ | ⟨hseq,hr,hle,hf,hv⟩ | ⟨heq,hnot⟩
  · -- the head has passed the sequence
    have hno : ¬ orderly := fun h => by have := hhead h; omega
    have hlt : c.voter.sequence<b.lastProposal.number+1 := by simp only [voter_sequence]; omega
    have hseq' : (c.startNewRound b r).current.sequence = b.lastProposal.number+1 := congrArg Voter.sequence hv
    rcases (c.startNewRound b r).broadcastRoundChange_cases r with ⟨_,hf',hv'⟩ | ⟨_,hs⟩
    · refine ⟨?_,?_,fun m hm => hh m (hsv.holds m (hf'.holds m hm)),hf'.address.trans hsv.address,
        hf'.key.trans hsv.key,.inr ⟨(sequence_eq_of_voter_eq hv').trans hseq',hf'.validators.trans hvals⟩⟩
      · rw [hf'.signed,hsv.signed,hf'.committed,hsv.committed,hv',hv]
        simpa [signedNow,committedNow,h₀] using Voter.Step.changeSequence _ hlt
      · rw [hf'.signed,hsv.signed,hf'.sealed,hsv.sealed]
        simp [signedNow,sealedNow,h₀]
    · refine ⟨?_,?_,fun m hm => hh m (hsv.holds m (hs.holds m hm)),hs.address.trans hsv.address,
        hs.key.trans hsv.key,.inr ⟨(sequence_eq_of_voter_eq hs.voter).trans hseq',hs.validators.trans hvals⟩⟩
      · rw [hs.signed,hsv.signed,hs.committed,hsv.committed,hs.voter,hv]
        simpa [signedNow,committedNow,h₀] using Voter.Step.catchUp _ _ hlt hno
      · rw [hs.signed,hsv.signed,hs.sealed,hsv.sealed]
        simp [signedNow,sealedNow,h₀,Voter.signRoundChange,SigningPayload.sealedPreimage]
  · -- a later round of the same sequence
    have hr0 : ((r.toNat : ℕ) : ℤ) = r := Int.toNat_of_nonneg (by omega)
    have hround : (c.startNewRound b r).current.round = r.toNat := congrArg Voter.round hv
    rcases (c.startNewRound b r).broadcastRoundChange_cases r with ⟨hlt,_⟩ | ⟨_,hs⟩
    · omega
    · have hseq' : (c.startNewRound b r).current.sequence = c.current.sequence := by
        have h₁ := congrArg Voter.sequence hv
        have h₂ : (c.discardBadLock b).voter.sequence = c.voter.sequence := by
          rw [discardBadLock_voter]; split <;> rfl
        exact h₁.trans h₂
      have hp : (c.startNewRound b r).voter.signRoundChange r.toNat =
          (c.discardBadLock b).voter.signRoundChange r.toNat := by rw [hv]; rfl
      rw [hp] at hs
      refine .signs h₀ hh hf hs hseq' ?_
      rw [hv]
      refine .changeRound r.toNat _ ?_ (by simp only [voter_round]; omega) fun ho hn => ?_
      · rw [discardBadLock_voter]
        split
        · rename_i hb
          exact .inr ⟨rfl,exists_of_hasBadLock hb⟩
        · exact .inl rfl
      · have := hne ho hn
        simp only [voter_round]
        omega
  · -- nothing is entered, but a ROUND-CHANGE may still be signed
    rw [heq]
    rcases c.broadcastRoundChange_cases r with ⟨_,hf,hv⟩ | ⟨hle,hs⟩
    · exact .quiet h₀ hh hf hv
    · refine .signs h₀ hh (.refl c) hs rfl ?_
      by_cases hr : r.toNat=c.current.round
      · rw [hr]
        exact .resend
      · refine .stray r.toNat (by simp only [voter_round]; omega) fun ho => hnot ⟨hhead ho,?_,hle⟩
        rintro rfl
        omega

lemma addRoundChange_eq_some {m : RoundChange} (h : c.addRoundChange m = some c') :
    ∃ rcs, c' = { c with roundChangeSet := rcs } := by
  unfold addRoundChange at h
  split at h
  · exact ⟨c.roundChangeSet,by simpa using h.symm⟩
  · split at h
    · exact ⟨_,(Option.some.inj h).symm⟩
    · split at h
      · simp at h
      · exact ⟨_,(Option.some.inj h).symm⟩

section
variable (h₀ : c.effects = []) (hh : ∀ m, c.Holds m → avail m)
include h₀ hh

lemma proposeForRound_simulates : Simulates orderly avail b c c.proposeForRound.1 := by
  unfold proposeForRound
  split
  · exact .refl h₀ hh
  · dsimp only
    split
    · exact .refl h₀ hh
    · dsimp only
      rcases c.sendPreprepareMsg_cases _ with heq | hs
      · rw [heq]; exact .refl h₀ hh
      · exact .signs h₀ hh (.refl c) hs rfl (.propose _)

lemma handleRoundChangeMsg_simulates
    {m : RoundChange} (hhead : orderly → b.lastProposal.number+1 = c.current.sequence) :
    Simulates orderly avail b c (c.handleRoundChangeMsg b m).1 := by
  unfold handleRoundChangeMsg
  split
  · exact .refl h₀ hh
  rename_i c' hadd
  obtain ⟨rcs,hc'⟩ := addRoundChange_eq_some hadd
  have hcur : c'.current=c.current := by rw [hc']
  have h₀' : c'.effects = [] := by rw [hc']; exact h₀
  have hh' : ∀ m, c'.Holds m → avail m := by rw [hc']; exact hh
  have hval : c'.valSet=c.valSet := by rw [hc']
  have hkey : c'.blsPublicKey=c.blsPublicKey := by rw [hc']
  have haddr : c'.address=c.address := by rw [hc']
  have hv : c'.voter=c.voter := by rw [hc']; rfl
  refine Simulates.of_same c' hval hkey haddr hv ?_
  dsimp only
  split
  · rename_i hf1
    refine newRound_simulates h₀' hh' _ (by rwa [hcur]) fun ho hn => ?_
    refine RoundChangeSet.getMinRoundChange_ne fun hzero => hn ?_
    rw [hzero] at hf1
    simp only [ValidatorSet.reachesF1,decide_eq_true_eq] at hf1
    omega
  · split
    · exact proposeForRound_simulates h₀' hh'
    · exact .refl h₀' hh'

lemma deliverMessage_simulates {m : Message} (havail : avail m) (hcheck : c.checkMessage m.code m.view=none)
    (hhead : orderly → m.code = .roundChange → b.lastProposal.number+1 = c.current.sequence) :
    Simulates orderly avail b c (c.deliverMessage b m).1 := by
  cases m with
  | preprepare m =>
    exact handlePreprepareMsg_simulates h₀ hh havail (checkMessage_eq_none (by simp [Message.code]) hcheck).1
  | prepare m =>
    obtain ⟨hview,hstate⟩ := checkMessage_eq_none (by simp [Message.code]) hcheck
    exact handlePrepareMsg_simulates h₀ hh havail hview (by simpa [Message.code] using hstate)
  | commit m =>
    obtain ⟨hview,hstate⟩ := checkMessage_eq_none (by simp [Message.code]) hcheck
    exact handleCommitMsg_simulates h₀ hh havail hview (by simpa [Message.code] using hstate)
  | roundChange m => exact handleRoundChangeMsg_simulates h₀ hh fun ho => hhead ho rfl

end

lemma addToBacklog_holds {m x : Message} (h : (c.addToBacklog m).Holds x) : c.Holds x ∨ x=m := by
  rcases h with h | h | h
  · simp only [addToBacklog] at h
    split at h
    · rcases h.of_insert with ⟨prio,hp⟩ | h
      · rcases List.mem_cons.mp hp with heq | hp
        · exact .inr (congrArg Prod.fst heq)
        · exact .inl (.inl (Queued.of_lookup hp))
      · exact .inl (.inl h)
    · exact .inl (.inl h)
  · exact .inl (.inr (.inl h))
  · exact .inl (.inr (.inr h))

lemma addToExtraSeal_simulates (h₀ : c.effects = []) (hh : ∀ m, c.Holds m → avail m) (m : Message) :
    Simulates orderly avail b c (c.addToExtraSeal m).1 := by
  have hp (m : Prepare) : Simulates orderly avail b c (c.addToPrepareExtraSeal m) :=
    .quiet h₀ hh ⟨⟨rfl,rfl,rfl,rfl,rfl,fun _ h => h⟩,rfl⟩ rfl
  have hc (m : Commit) : Simulates orderly avail b c (c.addToCommitExtraSeal m) :=
    .quiet h₀ hh ⟨⟨rfl,rfl,rfl,rfl,rfl,fun _ h => h⟩,rfl⟩ rfl
  have hr : Simulates orderly avail b c c := .refl h₀ hh
  unfold addToExtraSeal
  split
  · exact hr
  · exact hr
  · split
    · split
      · exact hr
      · split
        · exact hr
        · exact hp _
    · split
      · exact hr
      · split
        · exact hr
        · exact hc _
    · exact hr

lemma handleDecodedMessage_simulates (h₀ : c.effects = []) (hh : ∀ m, c.Holds m → avail m) {m : Message}
    (havail : c.checkMessage m.code m.view=none ∨ c.checkMessage m.code m.view = some .futureMessage → avail m)
    (hhead : orderly → m.code = .roundChange → b.lastProposal.number+1 = c.current.sequence) :
    Simulates orderly avail b c (c.handleDecodedMessage b m).1 := by
  unfold handleDecodedMessage
  split
  · rename_i hcheck
    exact deliverMessage_simulates h₀ hh (havail (.inl hcheck)) hcheck hhead
  · rename_i hcheck
    refine .held h₀ (fun x hx => ?_) rfl rfl rfl rfl rfl
    rcases addToBacklog_holds hx with hx | rfl
    · exact hh x hx
    · exact havail (.inr hcheck)
  · exact addToExtraSeal_simulates h₀ hh m
  · exact .refl h₀ hh

end Simulation

end Core

lemma Message.verifySignatures_code {validate : SigningPayload → Signature → View → Option Address}
    {m m' : Message} (h : m.verifySignatures validate = some m') : m'.code=m.code := by
  cases m <;> simp only [verifySignatures,Option.bind_eq_bind,Option.bind_eq_some_iff,
    Option.pure_def,Option.some.injEq,Option.map_eq_some_iff] at h
  · obtain ⟨_,_,_,_,_,_,rfl⟩ := h; rfl
  · obtain ⟨_,_,rfl⟩ := h; rfl
  · obtain ⟨_,_,rfl⟩ := h; rfl
  · obtain ⟨_,_,_,_,rfl⟩ := h; rfl

lemma Message.verifySignatures_view {validate : SigningPayload → Signature → View → Option Address}
    {m m' : Message} (h : m.verifySignatures validate = some m') : m'.view=m.view := by
  cases m <;> simp only [verifySignatures,Option.bind_eq_bind,Option.bind_eq_some_iff,
    Option.pure_def,Option.some.injEq,Option.map_eq_some_iff] at h
  · obtain ⟨_,_,_,_,_,_,rfl⟩ := h; rfl
  · obtain ⟨p,hp,rfl⟩ := h
    obtain ⟨_,_,rfl⟩ := Option.map_eq_some_iff.mp hp
    rfl
  · obtain ⟨_,_,rfl⟩ := h; rfl
  · obtain ⟨_,_,_,_,rfl⟩ := h; rfl

/-- The events that may take a core to another round. -/
def Event.movesRound : Event → Bool
  | .timeout => true
  | .message m => m.code = .roundChange
  | .backlog m => m.code = .roundChange
  | _ => false

namespace Core

/-- An event is orderly if the rounds still fit `uint64`, a change of round is handled on the head just
below the sequence, and a retry is not overdue. -/
structure Orderly (b : Backend) (c : Core) (e : Event) : Prop where
  round : c.current.round<2^64
  head : e.movesRound=true → b.lastProposal.number+1 = c.current.sequence
  retry : ∀ r, e = .retryTimeout r → r ≤ c.current.round

theorem handleEvent_simulates (avail : Message → Prop) (b : Backend) {c : Core} (e : Event)
    (h₀ : c.effects = []) (hh : ∀ m, c.Holds m → avail m) (hbacklog : ∀ m, e = .backlog m → avail m)
    (hmessage : ∀ m m', e = .message m → m.verifySignatures c.validateFn = some m' →
      c.checkMessage m'.code m'.view=none ∨ c.checkMessage m'.code m'.view = some .futureMessage → avail m') :
    Simulates (c.Orderly b e) avail b c (c.handleEvent b e) := by
  cases e with
  | message m =>
    simp only [handleEvent,handleEncodedMsg]
    split
    · exact .refl h₀ hh
    · split
      · exact .refl h₀ hh
      · rename_i m' hm'
        have hcode := Message.verifySignatures_code hm'
        exact handleDecodedMessage_simulates h₀ hh (hmessage m m' rfl hm')
          fun ho hc => ho.head (by simp [Event.movesRound,← hcode,hc])
  | backlog m =>
    exact handleDecodedMessage_simulates h₀ hh (fun _ => hbacklog m rfl)
      fun ho hc => ho.head (by simp [Event.movesRound,hc])
  | request proposal =>
    simp only [handleEvent,handleRequest]
    split
    · exact .quiet h₀ hh ⟨⟨rfl,rfl,rfl,rfl,rfl,fun _ h => h⟩,rfl⟩ rfl
    · exact .refl h₀ hh
    · let c₁ : Core := { c with current := { c.current with pendingRequest := some proposal } }
      refine .of_same c₁ rfl rfl rfl rfl ?_
      split
      · rcases c₁.sendPreprepareMsg_cases ⟨proposal,∅,[]⟩ with heq | hs
        · change Simulates _ avail b c₁ (c₁.sendPreprepareMsg ⟨proposal,∅,[]⟩)
          rw [heq]
          exact .refl h₀ hh
        · exact .signs h₀ hh (.refl c₁) hs rfl (.propose _)
      · exact .refl h₀ hh
  | timeout =>
    exact newRound_simulates h₀ hh _ (fun ho => ho.head rfl) (fun _ _ => by omega)
  | finalCommitted =>
    rcases c.startNewRound_cases b 0 with ⟨hle,hsv,hv,hvals⟩ | ⟨_,hr,_⟩ | ⟨heq,_⟩
    · refine ⟨?_,?_,fun m hm => hh m (hsv.holds m hm),hsv.address,hsv.key,.inr ⟨congrArg Voter.sequence hv,hvals⟩⟩
      · simp only [handleEvent]
        rw [hsv.signed,hsv.committed,hv]
        simpa [signedNow,committedNow,h₀] using
          Voter.Step.changeSequence (b.lastProposal.number+1) (by simp only [voter_sequence]; omega)
      · simp only [handleEvent]
        rw [hsv.signed,hsv.sealed]
        simp [signedNow,sealedNow,h₀]
    · contradiction
    · simp only [handleEvent]
      rw [heq]
      exact .refl h₀ hh
  | retryTimeout r =>
    rcases c.broadcastRoundChange_cases r with ⟨_,hf,hv⟩ | ⟨hle,hs⟩
    · exact .quiet h₀ hh hf hv
    · refine .signs h₀ hh (.refl c) hs rfl ?_
      rw [Int.toNat_natCast]
      by_cases hr : r=c.current.round
      · rw [hr]
        exact .resend
      · exact .stray r (by simp only [voter_round]; omega) fun ho => by have := ho.retry r rfl; omega
  | fireRetryTimer =>
    refine .held h₀ ?_ rfl rfl rfl rfl rfl
    rintro m (h | h | h)
    · exact hh m (.inl h)
    · refine hh m (.inr (.inl ?_))
      simp only [handleEvent] at h
      split at h <;> simpa using h
    · exact hh m (.inr (.inr h))
  | fireFuturePreprepareTimer =>
    refine .held h₀ ?_ rfl rfl rfl rfl rfl
    rintro m (h | h | ⟨p,hp,_⟩)
    · exact hh m (.inl h)
    · simp only [handleEvent] at h
      split at h
      · rename_i p hp
        rcases List.mem_cons.mp h with heq | h
        · exact hh m (.inr (.inr ⟨p,hp,by simpa using heq⟩))
        · exact hh m (.inr (.inl h))
      · exact hh m (.inr (.inl h))
    · simp [handleEvent] at hp

end Core

end StableNet.Wbft
