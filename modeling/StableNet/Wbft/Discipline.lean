import StableNet.Wbft.Acts
import StableNet.Wbft.Agreement

/-! The discipline of a single core: it votes once in a view, and commits only what a quorum of validators prepared.
-/
namespace StableNet.Wbft
open Chain View RoundChangeSet
variable {s r : ℕ} {d : Hash}

namespace Core

/-- What a move does to the voter of a core, to its validators and to what it has signed. -/
inductive Votes (c c' : Core) : Prop
  | keep (hvoter : c'.voter=c.voter) (hval : c'.valSet.validators=c.valSet.validators)
      (hsigned : ∃ ps, c'.signedNow = ps++c.signedNow ∧ ∀ p ∈ ps, p.sealedPreimage=none)
  | accept (m : Preprepare) (hmember : m.source ∈ c.valSet.members) (hview : m.view=c.currentView)
      (hstate : c.state = .acceptRequest) (hvoter : c'.voter = c.voter.accept m)
      (hval : c'.valSet.validators=c.valSet.validators)
      (hsigned : c'.signedNow = c.voter.signPrepare c.blsPublicKey m.proposal::c.signedNow)
  | prepare (m : Prepare) (block : Block) (hstate : c.state = .preprepared)
      (hcounts : c.Counts m.toCommonPayload m.digest block) (hvoter : c'.voter = c.voter.addPrepare m)
      (hval : c'.valSet.validators=c.valSet.validators) (hsigned : c'.signedNow=c.signedNow)
  | lock (block : Block) (hstate : c.state = .preprepared) (hproposal : c.current.proposal = some block)
      (hquorum : c.valSet.quorumSize ≤ c.current.wbftPrepares.size)
      (hvoter : c'.voter = c.voter.lockOn block) (hval : c'.valSet.validators=c.valSet.validators)
      (hsigned : c'.signedNow = c.voter.signCommit c.blsPublicKey block::c.signedNow)
  | commit (m : Commit) (hvoter : c'.voter = c.voter.addCommit m)
      (hval : c'.valSet.validators=c.valSet.validators) (hsigned : c'.signedNow=c.signedNow)
  | decide (hstate : c.state = .prepared) (hvoter : c'.voter = { c.voter with state := .committed })
      (hval : c'.valSet.validators=c.valSet.validators) (hsigned : c'.signedNow=c.signedNow)
  | changeRound (r : ℕ) (w : Voter) (hw : w=c.voter ∨ w=c.voter.unlock) (hlt : c.current.round<r)
      (hvoter : c'.voter = w.enter r) (hval : c'.valSet.validators=c.valSet.validators)
      (hsigned : c'.signedNow=c.signedNow)
  | changeSequence (s : ℕ) (hlt : c.current.sequence<s) (hvoter : c'.voter = .fresh s)
      (hsigned : c'.signedNow=c.signedNow)

section Votes

variable {b : Backend} {e : Event} {c₀ c c' : Core}

lemma Votes.of_frame (h : Frame c c') (hvoter : c'.voter=c.voter) : Votes c c' :=
  .keep hvoter h.validators ⟨[],h.signed,by simp⟩

lemma Votes.of_signs {p : SigningPayload} (h : Signs c p c') (hp : p.sealedPreimage=none) : Votes c c' :=
  .keep h.voter h.validators ⟨[p],h.signed,by simpa using hp⟩

lemma Move.votes (h : Move b e c₀ c c') : Votes c c' := by
  cases h with
  | backlog | wait | request | store | fireRetry | firePreprepare => exact .keep rfl rfl ⟨[],rfl,by simp⟩
  | extraSeal m =>
    obtain ⟨p,q,heq⟩ := addToExtraSeal_eq c m
    rw [heq]
    exact .keep rfl rfl ⟨[],rfl,by simp⟩
  | accept m _ _ hmember hview hstate =>
    let c₁ : Core := { c.newRoundChangeTimer with current := { c.current with preprepare := some m } }
    have hs := signs_broadcastPrepare (c₁.setState .preprepared) m.proposal
    have hf := setState_frame c₁ .preprepared
    have hvoter : (c₁.setState .preprepared).voter = c.voter.accept m := by
      rw [setState_voter]
      rfl
    refine .accept m hmember hview hstate (hs.voter.trans hvoter) (hs.validators.trans hf.validators) ?_
    refine hs.signed.trans (congrArg₂ List.cons ?_ hf.signed)
    rw [hvoter,setState_blsPublicKey]
    rfl
  | prepare m block _ _ hstate hcounts => exact .prepare m block hstate hcounts rfl rfl rfl
  | lock block hstate hproposal hquorum =>
    have hs := signs_broadcastCommit ((c.lockProposal block).setState .prepared) block
    have hf := setState_frame (c.lockProposal block) .prepared
    have hvoter : ((c.lockProposal block).setState .prepared).voter = c.voter.lockOn block := by
      rw [setState_voter]
      rfl
    refine .lock block hstate hproposal hquorum (hs.voter.trans hvoter)
      (hs.validators.trans hf.validators) ?_
    refine hs.signed.trans (congrArg₂ List.cons ?_ hf.signed)
    rw [hvoter,setState_blsPublicKey]
    rfl
  | commit m => exact .commit m rfl rfl rfl
  | decide block hstate =>
    have hf := setState_frame c .committed
    exact .decide hstate (setState_voter c .committed) hf.validators hf.signed
  | file m _ _ _ _ _ hadd =>
    obtain ⟨rcs,rfl⟩ := addRoundChange_eq_some hadd
    exact .keep rfl rfl ⟨[],rfl,by simp⟩
  | changeRound r hhead hlt =>
    have hf := enterRound_frame b (c.changeRound b r.toNat) r
    have hd := discardBadLock_frame b c
    refine .changeRound r.toNat (c.discardBadLock b).voter ?_ (by omega) ?_
      (hf.validators.trans hd.validators) (hf.signed.trans hd.signed)
    · rw [discardBadLock_voter]
      split
      · exact .inr rfl
      · exact .inl rfl
    · rw [enterRound_voter]
      rfl
  | changeSequence r hhead =>
    have hs := (c.changeSequence_sameVotes b).trans (enterRound_frame b _ r).toSameVotes
    refine .changeSequence (b.lastProposal.number+1) (by omega) ?_ hs.signed
    rw [enterRound_voter]
    rfl
  | ask r =>
    rcases c.broadcastRoundChange_cases r with ⟨_,hf,hv⟩ | ⟨_,hs⟩
    · exact .of_frame hf hv
    · exact .of_signs hs rfl
  | propose r =>
    rcases c.sendPreprepareMsg_cases r with heq | hs
    · rw [heq]
      exact .of_frame (.refl c) rfl
    · exact .of_signs hs rfl

lemma Votes.view (h : Votes c c') : c.currentView.cmp c'.currentView ≠ .gt := by
  have key (v : Voter) (hv : c'.voter=v)
      (h : c.current.sequence<v.sequence ∨ c.current.sequence=v.sequence ∧ c.current.round ≤ v.round) :
      c.currentView.cmp c'.currentView ≠ .gt := by
    rw [← voter_view c',hv]
    intro hgt
    have := cmp_eq_gt.mp hgt
    simp only [currentView,Voter.view] at this
    omega
  cases h with
  | keep hv | accept _ _ _ _ hv | prepare _ _ _ _ hv | lock _ _ _ _ hv | commit _ hv | decide _ hv =>
    exact key _ hv (.inr ⟨rfl,le_rfl⟩)
  | changeRound r w hw hlt hv =>
    refine key _ hv (.inr ⟨?_,hlt.le⟩)
    rcases hw with rfl | rfl <;> rfl
  | changeSequence s hlt hv => exact key _ hv (.inl hlt)

lemma sequence_le_of_view (h : c.currentView.cmp c'.currentView ≠ .gt) : c.current.sequence ≤ c'.current.sequence := by
  rw [Ne,cmp_eq_gt] at h
  simp only [currentView] at h
  omega

/-- The PREPAREs of a voter: filed under their sources, who are validators, and for the proposal of its view. -/
structure Polled (members : Finset Address) (v : Voter) : Prop where
  prepares : v.prepares.All fun src m => m.source=src ∧ src ∈ members ∧ m.view=v.view ∧
    ∀ block, v.proposal = some block → m.digest=block.hash
  idle : v.state = .acceptRequest → v.prepares=∅

lemma polled_fresh (members : Finset Address) (s : ℕ) : Polled members (.fresh s) :=
  ⟨MsgSet.all_empty,fun _ => rfl⟩

lemma Polled.votes (h : Polled c.valSet.members c.voter) (hv : Votes c c') : Polled c'.valSet.members c'.voter := by
  have hmembers (hval : c'.valSet.validators=c.valSet.validators) :
      c'.valSet.members=c.valSet.members := ValidatorSet.members_eq_of_validators hval
  cases hv with
  | keep hvoter hval => rw [hmembers hval,hvoter]; exact h
  | accept m hmember hview hstate hvoter hval =>
    rw [hmembers hval,hvoter]
    refine ⟨?_,fun hs => by simp [Voter.accept] at hs⟩
    rw [show (c.voter.accept m).prepares=∅ from h.idle hstate]
    exact MsgSet.all_empty
  | prepare m block hstate hcounts hvoter hval =>
    rw [hmembers hval,hvoter]
    refine ⟨h.prepares.add ⟨rfl,hcounts.member,hcounts.view,fun block' hb => ?_⟩,fun hs => ?_⟩
    · rw [hcounts.digest,Option.some.inj (hcounts.proposal.symm.trans hb)]
    · exact absurd (hs.symm.trans hstate) (by simp)
  | lock block hstate hproposal hquorum hvoter hval =>
    rw [hmembers hval,hvoter]
    exact ⟨h.prepares,fun hs => by simp [Voter.lockOn] at hs⟩
  | commit m hvoter hval =>
    rw [hmembers hval,hvoter]
    exact ⟨h.prepares,h.idle⟩
  | decide hstate hvoter hval =>
    rw [hmembers hval,hvoter]
    exact ⟨h.prepares,fun hs => by simp at hs⟩
  | changeRound r w hw hlt hvoter =>
    rw [hvoter]
    exact ⟨MsgSet.all_empty,fun _ => rfl⟩
  | changeSequence s hlt hvoter =>
    rw [hvoter]
    exact polled_fresh _ s

end Votes

end Core

namespace Voter

/-- A voter has left a view behind. -/
def Passed (v : Voter) (s r : ℕ) : Prop := s<v.sequence ∨ s=v.sequence ∧ r<v.round

/-- A voter is in a view and has accepted a block there. -/
structure Backs (v : Voter) (s r : ℕ) (d : Hash) : Prop where
  sequence : s=v.sequence
  round : r=v.round
  proposal : ∃ block, v.proposal = some block ∧ d=block.hash

/-- The votes a node has signed, as its voter accounts for them: those of its view are for its
proposal, a COMMIT among them has a quorum of PREPAREs, and no two votes of a view differ. -/
structure Unequivocal (q : ℕ) (H : Set SigningPayload) (v : Voter) : Prop where
  prepared : ∀ s r d sig, .prepare s r d sig ∈ H →
    v.Passed s r ∨ v.Backs s r d ∧ v.state ≠ .acceptRequest
  committed : ∀ s r d sig, .commit s r d sig ∈ H →
    v.Passed s r ∨ v.Backs s r d ∧ (v.state = .prepared ∨ v.state = .committed) ∧ q ≤ v.prepares.size
  prepareOnce : ∀ s r d d' sig sig', .prepare s r d sig ∈ H → .prepare s r d' sig' ∈ H → d=d'
  commitOnce : ∀ s r d d' sig sig', .commit s r d sig ∈ H → .commit s r d' sig' ∈ H → d=d'

variable {q q' : ℕ} {H H' : Set SigningPayload} {v v' : Voter}

lemma Passed.not_backs (h : v.Passed s r) : ¬ v.Backs s r d := by
  intro ha
  have hs := ha.sequence
  have hr := ha.round
  unfold Passed at h
  omega

lemma Backs.unique {d' : Hash} (h : v.Backs s r d) (h' : v.Backs s r d') : d=d' := by
  obtain ⟨_,hb,rfl⟩ := h.proposal
  obtain ⟨_,hb',rfl⟩ := h'.proposal
  rw [Option.some.inj (hb.symm.trans hb')]

lemma unequivocal_empty : Unequivocal q ∅ v :=
  ⟨fun _ _ _ _ h => absurd h id,fun _ _ _ _ h => absurd h id,fun _ _ _ _ _ _ h => absurd h id,
    fun _ _ _ _ _ _ h => absurd h id⟩

section
variable (h : Unequivocal q H v)
include h

lemma Unequivocal.sign (hH : ∀ p ∈ H', p ∈ H ∨ p.sealedPreimage=none) : Unequivocal q H' v where
  prepared s r d sig hp := h.prepared s r d sig ((hH _ hp).resolve_right (by simp [SigningPayload.sealedPreimage]))
  committed s r d sig hp := h.committed s r d sig ((hH _ hp).resolve_right (by simp [SigningPayload.sealedPreimage]))
  prepareOnce s r d d' sig sig' hp hp' := h.prepareOnce s r d d' sig sig'
    ((hH _ hp).resolve_right (by simp [SigningPayload.sealedPreimage]))
    ((hH _ hp').resolve_right (by simp [SigningPayload.sealedPreimage]))
  commitOnce s r d d' sig sig' hp hp' := h.commitOnce s r d d' sig sig'
    ((hH _ hp).resolve_right (by simp [SigningPayload.sealedPreimage]))
    ((hH _ hp').resolve_right (by simp [SigningPayload.sealedPreimage]))

theorem Unequivocal.move (hpassed : ∀ s r, v.Passed s r → v'.Passed s r)
    (hprepared : ∀ s r d, v.Backs s r d → v.state ≠ .acceptRequest →
      v'.Passed s r ∨ v'.Backs s r d ∧ v'.state ≠ .acceptRequest)
    (hcommitted : ∀ s r d, v.Backs s r d → v.state = .prepared ∨ v.state = .committed →
      q ≤ v.prepares.size → v'.Passed s r ∨
        v'.Backs s r d ∧ (v'.state = .prepared ∨ v'.state = .committed) ∧ q' ≤ v'.prepares.size) :
    Unequivocal q' H v' where
  prepared s r d sig hp := by
    rcases h.prepared s r d sig hp with hold | ⟨ha,hs⟩
    · exact .inl (hpassed s r hold)
    · exact hprepared s r d ha hs
  committed s r d sig hp := by
    rcases h.committed s r d sig hp with hold | ⟨ha,hs,hq⟩
    · exact .inl (hpassed s r hold)
    · exact hcommitted s r d ha hs hq
  prepareOnce := h.prepareOnce
  commitOnce := h.commitOnce

lemma Unequivocal.accept (hstate : v.state = .acceptRequest)
    (key : PublicKey) (m : Preprepare) : Unequivocal q (insert (v.signPrepare key m.proposal) H) (v.accept m) := by
  have hpassed (s r d sig) (hp : .prepare s r d sig ∈ H) : v.Passed s r :=
    (h.prepared s r d sig hp).resolve_right fun ha => ha.2 hstate
  have hnew (s r d sig) (hp : .prepare s r d sig ∈ insert (v.signPrepare key m.proposal) H) :
      (v.accept m).Backs s r d ∨ .prepare s r d sig ∈ H := by
    refine hp.imp_left fun heq => ?_
    simp only [signPrepare,SigningPayload.prepare.injEq] at heq
    exact ⟨heq.1,heq.2.1,m.proposal,rfl,heq.2.2.1⟩
  refine ⟨fun s r d sig hp => ?_,fun s r d sig hp => ?_,fun s r d d' sig sig' hp hp' => ?_,
    fun s r d d' sig sig' hp hp' => ?_⟩
  · rcases hnew s r d sig hp with ha | hp
    · exact .inr ⟨ha,by simp [Voter.accept]⟩
    · exact .inl (hpassed s r d sig hp)
  · have hp := hp.resolve_left (by simp [signPrepare])
    refine .inl ((h.committed s r d sig hp).resolve_right fun ha => ?_)
    rcases ha.2.1 with hs | hs <;> simp [hstate] at hs
  · rcases hnew s r d sig hp with ha | hp
    · rcases hnew s r d' sig' hp' with ha' | hp'
      · exact ha.unique ha'
      · exact absurd ha (Passed.not_backs (v := v.accept m) (hpassed s r d' sig' hp'))
    · rcases hnew s r d' sig' hp' with ha' | hp'
      · exact absurd ha' (Passed.not_backs (v := v.accept m) (hpassed s r d sig hp))
      · exact h.prepareOnce s r d d' sig sig' hp hp'
  · exact h.commitOnce s r d d' sig sig' (hp.resolve_left (by simp [signPrepare]))
      (hp'.resolve_left (by simp [signPrepare]))

lemma Unequivocal.lockOn (hstate : v.state = .preprepared) {block : Block}
    (hproposal : v.proposal = some block) (hquorum : q ≤ v.prepares.size) (key : PublicKey) :
    Unequivocal q (insert (v.signCommit key block) H) (v.lockOn block) := by
  have hpassed (s r d sig) (hp : .commit s r d sig ∈ H) : v.Passed s r := by
    refine (h.committed s r d sig hp).resolve_right fun ha => ?_
    rcases ha.2.1 with hs | hs <;> simp [hstate] at hs
  have hnew (s r d sig) (hp : .commit s r d sig ∈ insert (v.signCommit key block) H) :
      (v.lockOn block).Backs s r d ∨ .commit s r d sig ∈ H := by
    refine hp.imp_left fun heq => ?_
    simp only [signCommit,SigningPayload.commit.injEq] at heq
    exact ⟨heq.1,heq.2.1,block,hproposal,heq.2.2.1⟩
  refine ⟨fun s r d sig hp => ?_,fun s r d sig hp => ?_,fun s r d d' sig sig' hp hp' => ?_,
    fun s r d d' sig sig' hp hp' => ?_⟩
  · rcases h.prepared s r d sig (hp.resolve_left (by simp [signCommit])) with hold | ha
    · exact .inl hold
    · exact .inr ⟨⟨ha.1.sequence,ha.1.round,ha.1.proposal⟩,by simp [Voter.lockOn]⟩
  · rcases hnew s r d sig hp with ha | hp
    · exact .inr ⟨ha,.inl rfl,hquorum⟩
    · exact .inl (hpassed s r d sig hp)
  · exact h.prepareOnce s r d d' sig sig' (hp.resolve_left (by simp [signCommit]))
      (hp'.resolve_left (by simp [signCommit]))
  · rcases hnew s r d sig hp with ha | hp
    · rcases hnew s r d' sig' hp' with ha' | hp'
      · exact ha.unique ha'
      · exact absurd ha (Passed.not_backs (v := v.lockOn block) (hpassed s r d' sig' hp'))
    · rcases hnew s r d' sig' hp' with ha' | hp'
      · exact absurd ha' (Passed.not_backs (v := v.lockOn block) (hpassed s r d sig hp))
      · exact h.commitOnce s r d d' sig sig' hp hp'

end

end Voter

namespace Core

variable {b : Backend} {e : Event} {c₀ c c' : Core} {H : Set SigningPayload}

def allSigned (c : Core) (H : Set SigningPayload) : Set SigningPayload := {p | p ∈ c.signedNow ∨ p ∈ H}

lemma Votes.unequivocal (hv : Votes c c')
    (h : Voter.Unequivocal c.valSet.quorumSize (c.allSigned H) c.voter) :
    Voter.Unequivocal c'.valSet.quorumSize (c'.allSigned H) c'.voter := by
  have hq (hval : c'.valSet.validators=c.valSet.validators) :
      c'.valSet.quorumSize=c.valSet.quorumSize := by
    unfold ValidatorSet.quorumSize ValidatorSet.size
    rw [hval]
  have hsame (hs : c'.signedNow=c.signedNow) : c'.allSigned H = c.allSigned H := by
    unfold allSigned
    rw [hs]
  have hcons {p : SigningPayload} (hs : c'.signedNow=p::c.signedNow) :
      c'.allSigned H = insert p (c.allSigned H) := by
    ext x
    simp [allSigned,hs,or_assoc]
  cases hv with
  | keep hvoter hval hsigned =>
    obtain ⟨ps,hps,hno⟩ := hsigned
    rw [hq hval,hvoter]
    refine h.sign fun p hp => ?_
    rcases hp with hp | hp
    · rw [hps] at hp
      rcases List.mem_append.mp hp with hp | hp
      · exact .inr (hno p hp)
      · exact .inl (.inl hp)
    · exact .inl (.inr hp)
  | accept m hmember hview hstate hvoter hval hsigned =>
    rw [hq hval,hvoter,hcons hsigned]
    exact h.accept hstate _ m
  | prepare m block hstate hcounts hvoter hval hsigned =>
    rw [hq hval,hvoter,hsame hsigned]
    refine h.move (fun _ _ hp => hp) (fun s r d ha hs => .inr ⟨⟨ha.sequence,ha.round,ha.proposal⟩,hs⟩)
      fun s r d ha hs _ => ?_
    rcases hs with hs | hs <;> simp [hstate] at hs
  | lock block hstate hproposal hquorum hvoter hval hsigned =>
    rw [hq hval,hvoter,hcons hsigned]
    exact h.lockOn hstate hproposal hquorum _
  | commit m hvoter hval hsigned =>
    rw [hq hval,hvoter,hsame hsigned]
    exact h.move (fun _ _ hp => hp) (fun s r d ha hs => .inr ⟨⟨ha.sequence,ha.round,ha.proposal⟩,hs⟩)
      fun s r d ha hs hn => .inr ⟨⟨ha.sequence,ha.round,ha.proposal⟩,hs,hn⟩
  | decide hstate hvoter hval hsigned =>
    rw [hq hval,hvoter,hsame hsigned]
    exact h.move (fun _ _ hp => hp) (fun s r d ha hs => .inr ⟨⟨ha.sequence,ha.round,ha.proposal⟩,by simp⟩)
      fun s r d ha hs hn => .inr ⟨⟨ha.sequence,ha.round,ha.proposal⟩,.inr rfl,hn⟩
  | changeRound r w hw hlt hvoter hval hsigned =>
    rw [hq hval,hvoter,hsame hsigned]
    have hseq : (w.enter r).sequence = c.voter.sequence := by rcases hw with rfl | rfl <;> rfl
    have hleft (s r' : ℕ) (d : Hash) (ha : c.voter.Backs s r' d) : (w.enter r).Passed s r' :=
      .inr ⟨ha.sequence.trans hseq.symm,ha.round.trans_lt hlt⟩
    refine h.move (fun s r' hp => ?_) (fun s r' d ha _ => .inl (hleft s r' d ha))
      fun s r' d ha _ _ => .inl (hleft s r' d ha)
    rcases hp with hp | ⟨hp,hp'⟩
    · exact .inl (hp.trans_eq hseq.symm)
    · exact .inr ⟨hp.trans hseq.symm,hp'.trans hlt⟩
  | changeSequence s hlt hvoter hsigned =>
    rw [hvoter,hsame hsigned]
    refine h.move (fun s' r' hp => .inl ?_) (fun s' r' d ha _ => .inl (.inl ?_))
      fun s' r' d ha _ _ => .inl (.inl ?_)
    · rcases hp with hp | ⟨hp,_⟩
      · exact hp.trans hlt
      · exact hp.trans_lt hlt
    · exact ha.sequence.trans_lt hlt
    · exact ha.sequence.trans_lt hlt

/-- A core whose stored PREPAREs and signed votes are in order. -/
structure Disciplined (H : Set SigningPayload) (c : Core) : Prop where
  polled : Polled c.valSet.members c.voter
  unequivocal : Voter.Unequivocal c.valSet.quorumSize (c.allSigned H) c.voter

lemma Disciplined.move (h : c.Disciplined H) (hmove : Move b e c₀ c c') : c'.Disciplined H :=
  ⟨h.polled.votes hmove.votes,hmove.votes.unequivocal h.unequivocal⟩

lemma disciplined_receive (hpolled : Polled c.valSet.members c.voter)
    (h : Voter.Unequivocal c.valSet.quorumSize H c.voter) (e : Event) : (c.receive e).Disciplined H := by
  refine ⟨hpolled,?_⟩
  rw [show (c.receive e).allSigned H = H by simp [allSigned,receive,signedNow]]
  exact h

end Core

namespace Net

variable {cfg : Config} {backends : Address → Backend} {ok : Net → Input → Prop} {net net' : Net}
  {i : Input}

def signedBy (net : Net) (a : Address) : Set SigningPayload := {p | (a,p) ∈ net.signed}

lemma signedBy_next_self (net : Net) (i : Input) :
    (net.next i).signedBy i.node = (net.coreAfter i).allSigned (net.signedBy i.node) := by
  ext p
  simp [signedBy,next,Core.allSigned,Core.signedNow]

lemma signedBy_next_other (net : Net) {i : Input} {a : Address} (h : a ≠ i.node) :
    (net.next i).signedBy a = net.signedBy a := by
  ext p
  simp [signedBy,next,h.symm]

lemma Reachable.disciplined (h : net.Reachable cfg backends ok) (a : Address) :
    Core.Polled (net.cores a).valSet.members (net.cores a).voter ∧
    Voter.Unequivocal (net.cores a).valSet.quorumSize (net.signedBy a) (net.cores a).voter := by
  induction h generalizing a with
  | init =>
    obtain ⟨hvoter,_⟩ := init_spec cfg backends a
    rw [hvoter]
    refine ⟨Core.polled_fresh _ _,?_⟩
    rw [show (Net.init cfg backends).signedBy a=∅ by simp [signedBy,Net.init]]
    exact Voter.unequivocal_empty
  | @step net i hreach hen _ ih =>
    refine forall_cores_next (P := fun a c => Core.Polled c.valSet.members c.voter ∧
      Voter.Unequivocal c.valSet.quorumSize ((net.next i).signedBy a) c.voter) ?_ (fun a ha => ?_) a
    · have hself := ih i.node
      have hd := (hreach.moves hen).keeps (fun _ _ h => h.move) (Core.disciplined_receive hself.1 hself.2 i.event)
      rw [signedBy_next_self]
      exact ⟨hd.polled,hd.unequivocal⟩
    · rw [signedBy_next_other net ha]
      exact ih a

def Step (cfg : Config) (net net' : Net) : Prop := ∃ i, net.Enabled cfg i ∧ net' = net.next i

lemma Reachable.view_next (h : net.Reachable cfg backends ok) (hen : net.Enabled cfg i) (a : Address) :
    (net.cores a).currentView.cmp ((net.next i).cores a).currentView ≠ .gt := by
  refine forall_cores_next (P := fun a c => (net.cores a).currentView.cmp c.currentView ≠ .gt) ?_
    (fun a _ => cmp_self_ne_gt _) a
  exact (h.moves hen).keeps (fun _ _ hle hmove => cmp_trans hle hmove.votes.view) (cmp_self_ne_gt _)

lemma Reachable.view_run (h : net.Reachable cfg backends fun _ _ => True)
    (hrun : Relation.ReflTransGen (Step cfg) net net') (a : Address) : net'.Reachable cfg backends (fun _ _ => True) ∧
      (net.cores a).currentView.cmp (net'.cores a).currentView ≠ .gt := by
  induction hrun with
  | refl => exact ⟨h,cmp_self_ne_gt _⟩
  | tail _ hstep ih =>
    obtain ⟨i,hen,rfl⟩ := hstep
    exact ⟨ih.1.step hen trivial,cmp_trans ih.2 (ih.1.view_next hen a)⟩

end Net

lemma Voter.Step.view_of_signed_commit {orderly : Prop} {bad : Hash → Prop} {avail : Message → Prop}
    {valSet : ValidatorSet} {key : PublicKey} {v v' : Voter} {out : List SigningPayload}
    {blocks : List Block} (h : Step orderly bad avail valSet key v out blocks v') {sig : Seal}
    (hmem : .commit s r d sig ∈ out) : s=v'.sequence ∧ r=v'.round := by
  obtain ⟨hs,hr⟩ := h.view_of_commit hmem
  cases h with
  | lock m b htakes => exact ⟨hs,hr⟩
  | decide m b htakes => exact ⟨hs,hr⟩
  | _ => simp [signPrepare,signRoundChange] at hmem

/-- In every run of a network, whatever its nodes receive and import: no node goes back to an earlier
view, no node signs PREPAREs or COMMITs for two digests in a view, and a node that signs a COMMIT has
stored PREPAREs for its view and digest from a quorum of distinct validators. -/
theorem no_equivocation {cfg : Config} {backends : Address → Backend} {net : Net}
    (h : net.Reachable cfg backends fun _ _ => True) :
    (∀ net' : Net, Relation.ReflTransGen (Net.Step cfg) net net' → ∀ a,
      (net.cores a).currentView.cmp (net'.cores a).currentView ≠ .gt) ∧
    (∀ a s r d d' sig sig', (a,.prepare s r d sig) ∈ net.signed → (a,.prepare s r d' sig') ∈ net.signed → d=d') ∧
    (∀ a s r d d' sig sig', (a,.commit s r d sig) ∈ net.signed → (a,.commit s r d' sig') ∈ net.signed → d=d') ∧
    ∀ i, net.Enabled cfg i → ∀ s r d sig, .commit s r d sig ∈ (net.coreAfter i).signedNow →
      QuorumOf (fun m : Prepare => m.source) (net.coreAfter i).valSet.quorumSize
        (fun m => m.source ∈ (net.coreAfter i).valSet.members ∧ m.view = ⟨s,r⟩ ∧ m.digest=d)
        (net.coreAfter i).current.wbftPrepares.values := by
  refine ⟨fun net' hrun a => (h.view_run hrun a).2,fun a s r d d' sig sig' => ?_,
    fun a s r d d' sig sig' => ?_,fun i hen s r d sig hmem => ?_⟩
  · exact (h.disciplined a).2.prepareOnce s r d d' sig sig'
  · exact (h.disciplined a).2.commitOnce s r d d' sig sig'
  · have hstep := (Net.coreAfter_simulates (fun _ => True) hen (fun _ _ => trivial)
      fun _ _ _ _ _ _ _ => trivial).step
    obtain ⟨hs,hr⟩ := hstep.view_of_signed_commit hmem
    have hself := (h.disciplined i.node)
    have hd := (h.moves hen).keeps (fun _ _ h => h.move) (Core.disciplined_receive hself.1 hself.2 i.event)
    rcases hd.unequivocal.committed s r d sig (.inl hmem) with hold | ⟨ha,_,hquorum⟩
    · unfold Voter.Passed at hold
      omega
    · obtain ⟨block,hproposal,rfl⟩ := ha.proposal
      refine (hd.polled.prepares.quorumOf.of_le hquorum).mono fun m _ hm => ⟨hm.1,?_,hm.2.2 block hproposal⟩
      rw [hm.2.1,hs,hr]
      rfl

namespace FourValidators

/-- Validators 2 and 4 commit `blockA` in round 0, validator 2 even decides it. -/
theorem no_equivocation_round0 : ∃ net : Net, (4,(commitBy 4 0 blockA).encodePayloadForSigning) ∈ net.signed ∧
    ∀ d sig, (4,.commit 2 0 d sig) ∈ net.signed → d=blockA.hash := by
  obtain ⟨net,hreach,hmem⟩ := Net.exists_reachable_of_run config (fun _ => backend block1)
    (fun _ _ => True) (fun _ _ => True) (inputs block1 round0) (fun _ _ _ h => h)
    (fun net => (4,(commitBy 4 0 blockA).encodePayloadForSigning) ∈ net.signed) (by decide +kernel)
  exact ⟨net,hmem,fun d sig hd => (no_equivocation hreach).2.2.1 4 2 0 d blockA.hash sig _ hd hmem⟩

end FourValidators

namespace Core

/-- The ROUND-CHANGEs and the PREPAREs a core keeps are of its sequence, and the validators it counts
ROUND-CHANGEs for are its own. -/
structure Scoped (c : Core) : Prop where
  roundChanges : c.roundChangeSet.All fun m => m.sequence=c.current.sequence
  prepares : ∀ m ∈ c.wbftPreparedPrepares, m.sequence=c.current.sequence
  validators : c.roundChangeSet.validatorSet.validators=c.valSet.validators

variable {b : Backend} {e : Event} {c₀ c c' : Core}

lemma Scoped.congr (h : c.Scoped) (hrcs : c'.roundChangeSet=c.roundChangeSet)
    (hprep : c'.wbftPreparedPrepares=c.wbftPreparedPrepares) (hval : c'.valSet.validators=c.valSet.validators)
    (hseq : c'.current.sequence=c.current.sequence) : c'.Scoped := by
  refine ⟨?_,?_,?_⟩
  · rw [hrcs,hseq]; exact h.roundChanges
  · rw [hprep,hseq]; exact h.prepares
  · rw [hrcs,hval]; exact h.validators

lemma setState_roundChangeSet (c : Core) (st : State) : (c.setState st).roundChangeSet = c.roundChangeSet := by
  unfold setState; split <;> rfl

lemma setState_wbftPreparedPrepares (c : Core) (st : State) :
    (c.setState st).wbftPreparedPrepares = c.wbftPreparedPrepares := by
  unfold setState; split <;> rfl

lemma Scoped.setState (h : c.Scoped) (st : State) : (c.setState st).Scoped :=
  h.congr (setState_roundChangeSet c st) (setState_wbftPreparedPrepares c st) (by simp) (by simp)

lemma scoped_enterRound (b : Backend) {r : ℤ} (h : uint64 r=0 ∨ c.Scoped) : (c.enterRound b r).Scoped := by
  let c₁ := { c with valSet := c.valSet.calcProposer b.lastProposer (uint64 c.current.round) }
  have hreset : ((c₁.setState .acceptRequest).resetRoundChanges b r).Scoped := by
    unfold resetRoundChanges
    split
    · exact ⟨(all_newRoundChangeSet _).newRound r,by simp [clearExtraSeals],rfl⟩
    · have h₁ : c₁.Scoped := (h.resolve_left ‹_›).congr rfl rfl rfl rfl
      have h₂ := h₁.setState .acceptRequest
      exact ⟨(h₂.roundChanges.clearLowerThan r).newRound r,h₂.prepares,h₂.validators⟩
  exact hreset.congr rfl rfl rfl rfl

lemma Scoped.addRoundChange {m : RoundChange} (h : c.Scoped)
    (hsequence : m.sequence=c.current.sequence) (hadd : c.addRoundChange m = some c') : c'.Scoped := by
  unfold Core.addRoundChange at hadd
  split at hadd
  · exact Option.some.inj hadd ▸ h
  split at hadd
  · rw [← Option.some.inj hadd]
    exact ⟨h.roundChanges.add hsequence _ _ _ _,h.prepares,by rw [add_validatorSet]; exact h.validators⟩
  · split at hadd
    · simp at hadd
    · rw [← Option.some.inj hadd]
      exact ⟨h.roundChanges.add hsequence _ _ _ _,h.prepares,by rw [add_validatorSet]; exact h.validators⟩

lemma Scoped.move (h : c.Scoped) (hpolled : Polled c.valSet.members c.voter) (hmove : Move b e c₀ c c')
    (htime : e.movesRound=true → b.lastProposal.number<c.current.sequence) : c'.Scoped := by
  cases hmove with
  | backlog | wait | prepare | commit | request | store | fireRetry | firePreprepare => exact h.congr rfl rfl rfl rfl
  | extraSeal m =>
    obtain ⟨p,q,heq⟩ := addToExtraSeal_eq c m
    rw [heq]
    exact h.congr rfl rfl rfl rfl
  | accept m =>
    have hpre : ({ c.newRoundChangeTimer with current := { c.current with preprepare := some m } } :
        Core).Scoped := h.congr rfl rfl rfl rfl
    exact (hpre.setState .preprepared).congr rfl rfl rfl rfl
  | lock block =>
    have hlock : (c.lockProposal block).Scoped := by
      refine ⟨h.roundChanges,fun m hm => ?_,h.validators⟩
      obtain ⟨x,hx,rfl⟩ := List.mem_map.mp hm
      exact congrArg View.sequence (hpolled.prepares x hx).2.2.1
    exact (hlock.setState .prepared).congr rfl rfl rfl rfl
  | decide block => exact (h.setState .committed).congr rfl rfl rfl rfl
  | file m _ _ _ _ hcheck hadd => exact h.addRoundChange (sequence_of_checkMessage_roundChange hcheck) hadd
  | changeRound r =>
    have hround : (c.changeRound b r.toNat).Scoped := by
      unfold Core.changeRound discardBadLock
      split <;> exact h.congr rfl rfl rfl rfl
    exact scoped_enterRound b (.inr hround)
  | changeSequence r hhead hround =>
    cases hmoves : e.movesRound with
    | true =>
      have := htime hmoves
      omega
    | false =>
      rw [hround hmoves]
      exact scoped_enterRound b (.inl rfl)
  | ask r =>
    unfold broadcastRoundChange
    dsimp only
    split <;> exact h.congr rfl rfl rfl rfl
  | propose r =>
    unfold sendPreprepareMsg
    split
    · exact h.congr rfl rfl rfl rfl
    · exact h

end Core

namespace Net

variable {cfg : Config} {backends : Address → Backend} {net : Net} {i : Input}

/-- An event that may change the round is handled while the head is below the sequence. -/
def OnTime (net : Net) (i : Input) : Prop :=
  i.event.movesRound=true → i.backend.lastProposal.number<(net.cores i.node).current.sequence

instance (net : Net) (i : Input) : Decidable (net.OnTime i) := inferInstanceAs (Decidable (_ → _))

/-- In every run that changes rounds in time, each core keeps to its sequence. -/
theorem scoped_of_onTime (h : net.Reachable cfg backends OnTime) (a : Address) : (net.cores a).Scoped := by
  induction h generalizing a with
  | init => exact Core.scoped_enterRound _ (.inl rfl)
  | @step net i hreach hen htime ih =>
    refine forall_cores_next (P := fun _ c => c.Scoped) ?_ (fun a _ => ih a) a
    have hself := hreach.disciplined i.node
    have hd := Core.disciplined_receive hself.1 hself.2 i.event
    -- sequences only grow, so the head stays below them while the event is handled
    have hstep (c c' : Core) (hc : c.Scoped ∧ c.Disciplined (net.signedBy i.node) ∧
        (net.cores i.node).current.sequence ≤ c.current.sequence)
        (hmove : Core.Move i.backend i.event ((net.cores i.node).receive i.event) c c') :
        c'.Scoped ∧ c'.Disciplined (net.signedBy i.node) ∧
          (net.cores i.node).current.sequence ≤ c'.current.sequence := by
      refine ⟨hc.1.move hc.2.1.polled hmove fun hm => (htime hm).trans_le hc.2.2,hc.2.1.move hmove,?_⟩
      exact hc.2.2.trans (Core.sequence_le_of_view hmove.votes.view)
    exact ((hreach.moves hen).keeps hstep ⟨(ih _).congr rfl rfl rfl rfl,hd,le_rfl⟩).1

end Net

/-! ### A timeout that comes late

Validator 1 is honest and alone with three others. It is locked on `block1` in round 0 of sequence 1
and knows of one validator that has left for round 5 when its timer fires. -/

namespace LateTimeout
open FourValidators

def alone : Config := ⟨[(1,11)]⟩

/-- The head is the block of sequence 1, after which the validators are others. -/
def imported : Backend := { backend block1 with validators := fun _ => .newSet [1,2,3] [11,12,13] .roundRobin }

def leaves (a : Address) : RoundChange :=
  { sequence := 1, round := 5, source := a, signature := ⟨a,.roundChange 1 5 none⟩
    preparedRound := none, preparedDigest := .zero, preparedBlock := none, justification := [] }

def locked : List Input := inputs genesis
  ((1,.request block1)::deliver [1] (.preprepare (proposalBy 1 0 block1 [] []) ::
    [2,3,4].map (fun a => .prepare (prepareBy a 0 block1))++[.roundChange (leaves 3)]))

theorem scoped_while_locked : ∃ net : Net, (∃ en ∈ (net.cores 1).roundChangeSet.roundChanges.entries, en.2.size=1) ∧
    (net.cores 1).wbftPreparedPrepares.length = 3 ∧ (net.cores 1).Scoped := by
  obtain ⟨net,hreach,hrc,hprep⟩ := Net.exists_reachable_of_run alone (fun _ => backend genesis)
    Net.OnTime Net.OnTime locked (fun _ _ _ h => h)
    (fun net => (∃ en ∈ (net.cores 1).roundChangeSet.roundChanges.entries, en.2.size=1) ∧
      (net.cores 1).wbftPreparedPrepares.length = 3) (by decide +kernel)
  exact ⟨net,hrc,hprep,Net.scoped_of_onTime hreach 1⟩

/-- If `block1` is imported before the timer fires, the core enters sequence 2 but clears its books
for round 1 only: the ROUND-CHANGE and the PREPAREs of sequence 1 stay, and so do its validators. -/
theorem stale_after_import : ∃ net : Net, net.Reachable alone (fun _ => backend genesis) (fun _ _ => True) ∧
    (net.cores 1).currentView = ⟨2,0⟩ ∧
    (∃ en ∈ (net.cores 1).roundChangeSet.roundChanges.entries, ∃ x ∈ en.2.entries, x.2.sequence=1) ∧
    (∃ m ∈ (net.cores 1).wbftPreparedPrepares, m.sequence=1) ∧
    (net.cores 1).roundChangeSet.validatorSet.validators ≠ (net.cores 1).valSet.validators :=
  Net.exists_reachable_of_run alone (fun _ => backend genesis) (fun _ _ => True) (fun _ _ => True)
    (locked++[⟨1,imported,.timeout⟩]) (fun _ _ _ h => h)
    (fun net => (net.cores 1).currentView = ⟨2,0⟩ ∧
      (∃ en ∈ (net.cores 1).roundChangeSet.roundChanges.entries, ∃ x ∈ en.2.entries, x.2.sequence=1) ∧
      (∃ m ∈ (net.cores 1).wbftPreparedPrepares, m.sequence=1) ∧
      (net.cores 1).roundChangeSet.validatorSet.validators ≠ (net.cores 1).valSet.validators)
    (by decide +kernel)

end LateTimeout

end StableNet.Wbft
