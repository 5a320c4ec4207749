import StableNet.Wbft.Backlog

/-! The checks of seals. A vote is checked against the validators of the current sequence, a late one against those of
the prior one. -/
namespace StableNet.Wbft
open Chain

/-- A call of `verifySeal`. -/
structure SealCheck where
  valSet : ValidatorSet
  header : Header
  round : ℕ
  sealType : SealType
  signature : Seal
  sealer : Address

namespace SealCheck

def verify (q : SealCheck) : Option SealError :=
  verifySeal q.valSet q.header q.round q.sealType q.signature q.sealer

/-- The check of a vote for a block, made once its digest is found to match. -/
def ofVote (valSet : ValidatorSet) (block : Block) : Message → Option SealCheck
  | .prepare m =>
    if m.digest≠block.hash then none
    else some ⟨valSet,block.header,uint32 m.round,.prepare,m.prepareSeal,m.source⟩
  | .commit m =>
    if m.digest≠block.hash then none
    else some ⟨valSet,block.header,uint32 m.round,.commit,m.commitSeal,m.source⟩
  | _ => none

lemma of_ofVote {valSet : ValidatorSet} {block : Block} {m : Message} {q : SealCheck}
    (h : ofVote valSet block m = some q) : q.valSet=valSet ∧ q.sealer=m.source := by
  cases m with
  | preprepare m => simp [ofVote] at h
  | prepare | commit =>
    simp only [ofVote,Option.ite_none_left_eq_some,Option.some.injEq] at h
    obtain ⟨_,rfl⟩ := h
    exact ⟨rfl,rfl⟩
  | roundChange m => simp [ofVote] at h

end SealCheck

namespace Core

def extraSealCheck (c : Core) (m : Message) : Option SealCheck :=
  match c.extraSealTarget with
  | (some block,some valSet) => SealCheck.ofVote valSet block m
  | _ => none

def voteCheck (c : Core) (m : Message) : Option SealCheck :=
  c.current.proposal.bind fun block => SealCheck.ofVote c.valSet block m

/-- The seal check made while a message is handled. -/
def messageCheck (c : Core) (m : Message) : Option SealCheck :=
  match c.checkMessage m.code m.view with
  | none => c.voteCheck m
  | some .extraSealMessage => c.extraSealCheck m
  | _ => none

def sealCheck (c : Core) (e : Event) : Option SealCheck := (c.brought e).bind c.messageCheck

section Handlers

variable {b : Backend} {c : Core}

lemma handlePrepareMsg_eq (m : Prepare) : c.handlePrepareMsg m = match c.current.proposal, c.voteCheck (.prepare m) with
    | some proposal, some q =>
      if q.verify≠none then (c,some .invalidMessage)
      else (if (c.addPrepare m).hasPrepareQuorum then (c.addPrepare m).prepareProposal proposal
        else c.addPrepare m,none)
    | _, _ => (c,some .invalidMessage) := by
  unfold handlePrepareMsg voteCheck
  cases c.current.proposal with
  | none => rfl
  | some proposal =>
    by_cases h : m.digest=proposal.hash
    · simp only [h,ne_eq,not_true,if_false,Option.bind_some,SealCheck.ofVote]
      rfl
    · simp [h,SealCheck.ofVote]

lemma handleCommitMsg_eq (m : Commit) : c.handleCommitMsg b m = match c.current.proposal, c.voteCheck (.commit m) with
    | some proposal, some q =>
      if q.verify≠none then (c,some .invalidMessage)
      else (if c.valSet.quorumSize ≤ (c.addCommit m).current.wbftCommits.size
        then (c.addCommit m).commitWBFT b proposal else c.addCommit m,none)
    | _, _ => (c,some .invalidMessage) := by
  unfold handleCommitMsg voteCheck
  cases c.current.proposal with
  | none => rfl
  | some proposal =>
    by_cases h : m.digest=proposal.hash
    · simp only [h,ne_eq,not_true,if_false,Option.bind_some,SealCheck.ofVote]
      rfl
    · simp [h,SealCheck.ofVote]

/-- A late vote is kept exactly if its seal check succeeds. -/
theorem addToExtraSeal_of_check {m : Message} {q : SealCheck} (h : c.extraSealCheck m = some q) :
    c.addToExtraSeal m = if q.verify≠none then (c,some .invalidSigner) else
      match m with
      | .prepare m => (c.addToPrepareExtraSeal m,none)
      | .commit m => (c.addToCommitExtraSeal m,none)
      | _ => (c,some .invalidExtraSealMessage) := by
  unfold extraSealCheck at h
  unfold addToExtraSeal
  split at h
  · rename_i block valSet htarget
    rw [htarget]
    cases m with
    | preprepare | roundChange => simp [SealCheck.ofVote] at h
    | prepare | commit =>
      simp only [SealCheck.ofVote,Option.ite_none_left_eq_some,Option.some.injEq] at h
      obtain ⟨hdigest,rfl⟩ := h
      dsimp only
      rw [if_neg hdigest]
      rfl
  · simp at h

end Handlers

/-- A message of the prior sequence comes from a validator of that sequence. -/
def PriorVouched (c : Core) (m : Message) : Prop :=
  c.current.sequence = m.view.sequence+1 →
    ∀ valSet, c.priorState.validatorSet = some valSet → m.source ∈ valSet.members

/-- What the core keeps for later is vouched for by the validators of the prior sequence, too. -/
def Vetted (c : Core) : Prop := ∀ m, c.Holds m → c.PriorVouched m

section Vetted

variable {b : Backend} {e : Event} {c₀ c c' : Core}

@[simp] lemma setState_priorState (c : Core) (st : State) : (c.setState st).priorState = c.priorState := by
  unfold setState; split <;> rfl

@[simp] lemma enterRound_priorState (b : Backend) (c : Core) (r : ℤ) :
    (c.enterRound b r).priorState = c.priorState := by
  unfold enterRound resetRoundChanges
  dsimp only
  split <;> exact setState_priorState _ _

lemma changeRound_scope (b : Backend) (c : Core) (r : ℕ) : (c.changeRound b r).priorState = c.priorState ∧
      (c.changeRound b r).current.sequence = c.current.sequence := by
  unfold changeRound discardBadLock
  split <;> exact ⟨rfl,rfl⟩

theorem Vetted.of_holds (h : c.Vetted) (hseq : c'.current.sequence=c.current.sequence)
    (hprior : c'.priorState=c.priorState)
    (hholds : ∀ m, c'.Holds m → c.Holds m ∨ c.current.sequence ≤ m.view.sequence) : c'.Vetted := by
  intro m hm hs
  rw [hprior]
  rcases hholds m hm with hm | hle
  · exact h m hm (hseq ▸ hs)
  · omega

lemma Vetted.of_frame (h : c.Vetted) (hframe : Frame c c')
    (hseq : c'.current.sequence=c.current.sequence) (hprior : c'.priorState=c.priorState) :
    c'.Vetted := h.of_holds hseq hprior fun m hm => .inl (hframe.holds m hm)

lemma Vetted.setState (h : c.Vetted) (st : State) : (c.setState st).Vetted :=
  h.of_frame (setState_frame c st) (by simp) (by simp)

/-- With the sequence the present validators become the prior ones, and all that is kept is from
them, unless it is of another sequence. -/
theorem vetted_changeSequence (hfiled : c.Filed) (hlt : c.current.sequence<c'.current.sequence)
    (hprior : c'.priorState.validatorSet = some c.valSet) (hholds : ∀ m, c'.Holds m → c.Holds m) : c'.Vetted := by
  intro m hm hs valSet hv
  obtain rfl : c.valSet=valSet := by simpa [hprior] using hv
  rcases hholds m hm with ⟨en,hen,prio,hx⟩ | hdue
  · rw [hfiled.key en hen _ hx]
    exact hfiled.member en hen
  · exact (hfiled.due m hdue).2 (by omega)

lemma Vetted.move (h : c.Vetted) (hfiled : c.Filed) (hmove : Move b e c₀ c c') : c'.Vetted := by
  cases hmove with
  | backlog m _ _ _ hcheck =>
    refine h.of_holds rfl rfl fun x hx => ?_
    rcases addToBacklog_holds hx with hx | rfl
    · exact .inl hx
    · exact .inr (window_of_checkMessage (.inr hcheck)).1
  | extraSeal m =>
    obtain ⟨p,q,heq⟩ := addToExtraSeal_eq c m
    rw [heq]
    exact h
  | wait m _ _ _ hview =>
    refine h.of_holds rfl rfl fun x hx => ?_
    rcases hx with hx | hx | ⟨p,hp,rfl⟩
    · exact .inl (.inl hx)
    · exact .inl (.inr (.inl hx))
    · obtain rfl : m=p := by simpa using hp
      exact .inr (congrArg View.sequence hview).ge
  | accept m =>
    have htimer : c.newRoundChangeTimer.Vetted := h.of_frame (newRoundChangeTimer_frame c) rfl rfl
    have hpre : ({ c.newRoundChangeTimer with current := { c.current with preprepare := some m } } :
        Core).Vetted := htimer
    exact hpre.setState .preprepared
  | prepare | commit | request | store => exact h
  | lock proposal =>
    have hlock : (c.lockProposal proposal).Vetted := h
    exact hlock.setState .prepared
  | decide proposal => exact h.setState .committed
  | file m _ _ _ _ _ hadd =>
    obtain ⟨rcs,rfl⟩ := addRoundChange_eq_some hadd
    exact h
  | changeRound r =>
    obtain ⟨hprior,hseq⟩ := changeRound_scope b c r.toNat
    refine h.of_holds ?_ ((enterRound_priorState b _ r).trans hprior) fun m hm => ?_
    · rw [enterRound_current]
      exact hseq
    · have hround : (c.changeRound b r.toNat).Holds m := (enterRound_frame b _ r).holds m hm
      exact .inl ((discardBadLock_frame b c).holds m hround)
  | changeSequence r hhead =>
    refine vetted_changeSequence hfiled ?_ ?_ (enterRound_frame b (c.changeSequence b) r).holds
    · rw [enterRound_current]
      exact Nat.lt_succ_of_le hhead
    · rw [enterRound_priorState]
      rfl
  | ask r =>
    unfold broadcastRoundChange
    dsimp only
    split <;> exact h
  | propose r =>
    unfold sendPreprepareMsg
    split <;> exact h
  | fireRetry => exact h.of_holds rfl rfl fun _ hm => .inl (hm.imp_right due_of_fireRetry)
  | firePreprepare => exact h.of_holds rfl rfl fun _ hm => .inl (hm.imp_right due_of_firePreprepare)

end Vetted

section Sealer

variable {c : Core} {m : Message} {q : SealCheck}

/-- A vote is late in the first state of a sequence, for the last view of the one before, or in the
last states of its own view. -/
theorem extraSealMessage_cases (h : c.checkMessage m.code m.view = some .extraSealMessage) :
    c.state = .acceptRequest ∧ c.current.sequence = m.view.sequence+1 ∧
      m.view.round=c.priorState.round ∨ c.state ≠ .acceptRequest ∧ m.view=c.currentView := by
  unfold checkMessage at h
  split at h
  · simp at h
  split at h
  · split at h
    · simp at h
    · split at h <;> simp at h
  split at h
  · simp at h
  rename_i hngt
  split at h
  · split at h
    · rename_i hprior
      exact .inl ⟨hprior.2.2,hprior.1,hprior.2.1⟩
    · simp at h
  rename_i hnlt
  refine .inr ⟨fun hstate => ?_,View.cmp_eq_eq.mp ?_⟩
  · unfold checkState at h
    rw [hstate] at h
    dsimp only at h
    split at h <;> simp at h
  · cases hcmp : m.view.cmp c.currentView <;> simp_all

lemma sealer_of_messageCheck (hcur : c.Vouched m)
    (hprior : c.state = .acceptRequest → m.view.round=c.priorState.round → c.PriorVouched m)
    (h : c.messageCheck m = some q) : q.sealer ∈ q.valSet.members := by
  unfold messageCheck at h
  split at h
  · rename_i hcheck
    obtain ⟨block,_,hq⟩ := Option.bind_eq_some_iff.mp h
    obtain ⟨hval,hsealer⟩ := SealCheck.of_ofVote hq
    rw [hval,hsealer]
    exact hcur (window_of_checkMessage (.inl hcheck)).1
  · rename_i hcheck
    unfold extraSealCheck at h
    split at h
    · rename_i block valSet htarget
      obtain ⟨hval,hsealer⟩ := SealCheck.of_ofVote h
      rw [hval,hsealer]
      unfold extraSealTarget at htarget
      rcases extraSealMessage_cases hcheck with ⟨hstate,hseq,hround⟩ | ⟨hstate,hview⟩
      · rw [if_pos hstate] at htarget
        exact hprior hstate hround hseq valSet (Prod.ext_iff.mp htarget).2
      · rw [if_neg hstate] at htarget
        obtain ⟨_,rfl⟩ : c.current.proposal = some block ∧ c.valSet=valSet := by simpa using htarget
        exact hcur (by simp [hview])
    · simp at h
  · simp at h

theorem sealer_of_message {m₀ : Message} (hv : m₀.verifySignatures c.validateFn = some m)
    (h : c.messageCheck m = some q) : q.sealer ∈ q.valSet.members := by
  refine sealer_of_messageCheck (vouched_of_verifySignatures hv) (fun hstate hround hseq valSet hset => ?_) h
  have hmem := source_mem_of_verifySignatures hv
  have hlt : m.view.cmp c.currentView = .lt := View.cmp_eq_lt.mpr (.inl (by simp; omega))
  rwa [signatureValidators,if_pos ⟨hlt,hstate,hseq.symm,hround⟩,hset,Option.getD_some] at hmem

end Sealer

end Core

namespace ValidatorSet

lemma isSome_getByAddress {v : ValidatorSet} {a : Address} (h : a ∈ v.members) : (v.getByAddress a).isSome := by
  obtain ⟨val,hval,heq⟩ := List.mem_map.mp (List.mem_toFinset.mp h)
  exact List.find?_isSome.mpr ⟨val,hval,by simpa using heq⟩

end ValidatorSet

namespace Net

variable {cfg : Config} {backends : Address → Backend} {ok : Net → Input → Prop} {net : Net} {i : Input}

lemma Reachable.vetted (h : net.Reachable cfg backends ok) (a : Address) : (net.cores a).Vetted := by
  induction h generalizing a with
  | init => exact fun m hm => absurd hm ((init_spec cfg backends a).2.2 m)
  | @step net i hreach hen _ ih =>
    refine forall_cores_next (P := fun _ c => c.Vetted) ?_ (fun a _ => ih a) a
    have hreceive : ((net.cores i.node).receive i.event).Vetted := fun m hm => ih i.node m (Core.receive_holds hm)
    exact ((hreach.moves hen).keeps (I := fun c => c.Vetted ∧ c.Filed)
      (fun _ _ hc hmove => ⟨hc.1.move hc.2 hmove,hc.2.move hmove⟩)
      ⟨hreceive,(hreach.filed i.node).receive i.event⟩).1

/-- In every run, whatever the backends answer and however late a message is handled, the sealer of
every seal that is checked is one of the validators it is checked against. -/
theorem sealer_is_validator (h : net.Reachable cfg backends ok) (hen : net.Enabled cfg i) (q : SealCheck)
    (hq : ((net.cores i.node).receive i.event).sealCheck i.event = some q) :
    (q.valSet.getByAddress q.sealer).isSome ∧ q.verify ≠ some .missingValidator := by
  have hmem : q.sealer ∈ q.valSet.members := by
    obtain ⟨m,hm,hq⟩ := Option.bind_eq_some_iff.mp hq
    rcases Core.brought_eq_some hm with he | ⟨m₀,_,hv⟩
    · have hposted : .backlog m ∈ (net.cores i.node).posted := by
        have := hen.2
        rwa [he] at this
      refine Core.sealer_of_messageCheck ((h.filed i.node).due m (.inl hposted)).2 (fun _ _ => ?_) hq
      exact h.vetted i.node m (.inr (.inl hposted))
    · exact Core.sealer_of_message hv hq
  have hsome := ValidatorSet.isSome_getByAddress hmem
  refine ⟨hsome,?_⟩
  obtain ⟨val,hval⟩ := Option.isSome_iff_exists.mp hsome
  unfold SealCheck.verify verifySeal
  rw [hval]
  dsimp only
  split <;> simp

end Net

/-! ### A vote handled after its sender has left

Validator 2 votes for `block1` before validator 1 has the proposal. Its vote is taken from the backlog,
but handled only after `block1` was imported, and validator 2 is not in the next validator set. -/

namespace LateVote
open FourValidators LateTimeout

def withoutTwo : Backend := { backend block1 with validators := fun _ => .newSet [1,3,4] [11,13,14] .roundRobin }

def late : Input := ⟨1,withoutTwo,.backlog (.prepare (prepareBy 2 0 block1))⟩

def script : List Input :=
  inputs genesis (deliver [1] [.prepare (prepareBy 2 0 block1)]++(1,.request block1) ::
    deliver [1] [.preprepare (proposalBy 1 0 block1 [] [])])++[⟨1,withoutTwo,.finalCommitted⟩]

theorem sealer_found_after_leaving : ∃ (net : Net) (q : SealCheck),
    net.Enabled alone late ∧ 2 ∉ (net.cores 1).valSet.members ∧
    ((net.cores 1).receive late.event).sealCheck late.event = some q ∧
    (q.valSet.getByAddress q.sealer).isSome ∧ q.verify ≠ some .missingValidator := by
  obtain ⟨net,hreach,hen,hleft,hcheck⟩ := Net.exists_reachable_of_run alone (fun _ => backend genesis)
    (fun _ _ => True) (fun _ _ => True) script (fun _ _ _ h => h)
    (fun net => net.Enabled alone late ∧ 2 ∉ (net.cores 1).valSet.members ∧
      (((net.cores 1).receive late.event).sealCheck late.event).isSome) (by decide +kernel)
  obtain ⟨q,hq⟩ := Option.isSome_iff_exists.mp hcheck
  exact ⟨net,q,hen,hleft,hq,Net.sealer_is_validator hreach hen q hq⟩

end LateVote

end StableNet.Wbft
