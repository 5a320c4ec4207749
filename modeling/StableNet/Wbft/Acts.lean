import StableNet.Wbft.Provenance

/-! What a core does while it handles one event, move by move. -/
namespace StableNet.Wbft
open Chain
variable {c : Core} {m : Message}
variable {m₀ : Message} {view : View} {I : Core → Prop} {src : Address} {srcs : List Address} {s : BacklogState}

namespace Core

/-- Hand the proposal with its seals to the backend. -/
def handOver (c : Core) (proposal : Block) : Core :=
  let c := c.setState .committed
  let preparedSeals := c.current.wbftPrepares.values.map fun m => c.sealData m.source m.prepareSeal
  let committedSeals := c.current.wbftCommits.values.map fun m => c.sealData m.source m.commitSeal
  c.emit (.commit proposal preparedSeals committedSeals c.current.round)

lemma commitWBFT_eq (b : Backend) (c : Core) (proposal : Block) :
    c.commitWBFT b proposal = if b.commitFails proposal then
      (c.handOver proposal).broadcastNextRoundChange else c.handOver proposal := rfl

/-- Lock on the proposal and vote for its commitment. -/
def prepareProposal (c : Core) (proposal : Block) : Core :=
  ((c.lockProposal proposal).setState .prepared).broadcastCommit proposal

/-- A vote for the proposal of the current view, from a validator. -/
structure Counts (c : Core) (m : CommonPayload) (digest : Hash) (block : Block) : Prop where
  member : m.source ∈ c.valSet.members
  view : m.view=c.currentView
  proposal : c.current.proposal = some block
  digest : digest=block.hash

/-- The message an event brings: a backlogged one as it is, any other after its signatures were
checked. -/
def brought (c : Core) : Event → Option Message
  | .message m => if decodes m then m.verifySignatures c.validateFn else none
  | .backlog m => some m
  | _ => none

/-- One thing a core does while it handles the event `e` that finds it as `c₀`, with what led to it: the message is
the one the event brings, and is handled first; a round is entered that is above the current one; a round or sequence
is entered from that of `c₀`, and a proposal locked, before anything is sent; a ROUND-CHANGE for the current round is
sent only on entering it or on a retry. -/
inductive Move (b : Backend) (e : Event) (c₀ c : Core) : Core → Prop
  | backlog (m : Message) (hstart : c=c₀) (hbrought : c.brought e = some m) (hmember : m.source ∈ c.valSet.members)
      (hcheck : c.checkMessage m.code m.view = some .futureMessage) : Move b e c₀ c (c.addToBacklog m)
  | extraSeal (m : Message) (hstart : c=c₀) (hbrought : c.brought e = some m)
      (hcheck : c.checkMessage m.code m.view = some .extraSealMessage) : Move b e c₀ c (c.addToExtraSeal m).1
  | wait (m : Preprepare) (hstart : c=c₀) (hbrought : c.brought e = some (.preprepare m))
      (hmember : m.source ∈ c.valSet.members)
      (hview : m.view=c.currentView) :
      Move b e c₀ c { c with timers := { c.timers with futurePreprepare := some m } }
  | accept (m : Preprepare) (hstart : c=c₀) (hbrought : c.brought e = some (.preprepare m))
      (hmember : m.source ∈ c.valSet.members) (hview : m.view=c.currentView)
      (hstate : c.state = .acceptRequest) (hnumber : m.sequence=m.proposal.number) :
      Move b e c₀ c (c.acceptPreprepare m)
  | prepare (m : Prepare) (proposal : Block) (hstart : c=c₀) (hbrought : c.brought e = some (.prepare m))
      (hstate : c.state = .preprepared) (hcounts : c.Counts m.toCommonPayload m.digest proposal) :
      Move b e c₀ c (c.addPrepare m)
  | lock (proposal : Block) (hstate : c.state = .preprepared)
      (hproposal : c.current.proposal = some proposal)
      (hquorum : c.valSet.quorumSize ≤ c.current.wbftPrepares.size)
      (hquiet : c.effects = []) : Move b e c₀ c (c.prepareProposal proposal)
  | commit (m : Commit) (proposal : Block) (hstart : c=c₀) (hbrought : c.brought e = some (.commit m))
      (hstate : c.state = .prepared)
      (hcounts : c.Counts m.toCommonPayload m.digest proposal) : Move b e c₀ c (c.addCommit m)
  | decide (proposal : Block) (hstate : c.state = .prepared)
      (hproposal : c.current.proposal = some proposal)
      (hquorum : c.valSet.quorumSize ≤ c.current.wbftCommits.size) : Move b e c₀ c (c.handOver proposal)
  | file (m : RoundChange) (c' : Core) (hstart : c=c₀) (hbrought : c.brought e = some (.roundChange m))
      (hmember : m.source ∈ c.valSet.members) (hcheck : c.checkMessage .roundChange m.view=none)
      (hadd : c.addRoundChange m = some c') : Move b e c₀ c c'
  | changeRound (r : ℤ) (hhead : b.lastProposal.number+1 = c.current.sequence)
      (hlt : (c.current.round : ℤ)<r) (hmoves : e.movesRound=true)
      (hnext : r = c.current.round+1 ∨ r = c.roundChangeSet.getMinRoundChange c.current.round)
      (hquiet : c.effects = []) (hstart : c.current=c₀.current) :
      Move b e c₀ c ((c.changeRound b r.toNat).enterRound b r)
  | changeSequence (r : ℤ) (hhead : c.current.sequence ≤ b.lastProposal.number)
      (hround : e.movesRound=false → r=0) (hquiet : c.effects = [])
      (hstart : c.current=c₀.current) : Move b e c₀ c ((c.changeSequence b).enterRound b r)
  | ask (r : ℤ)
      (hask : r=c.current.round →
        c.state = .acceptRequest ∨ c=c₀ ∧ e = .retryTimeout c.current.round) :
      Move b e c₀ c (c.broadcastRoundChange r)
  | propose (r : Request) : Move b e c₀ c (c.sendPreprepareMsg r)
  | request (proposal : Block) :
      Move b e c₀ c { c with current := { c.current with pendingRequest := some proposal } }
  | store (proposal : Block) : Move b e c₀ c (c.storeRequestMsg proposal)
  | fireRetry : Move b e c₀ c (c.handleEvent b .fireRetryTimer)
  | firePreprepare : Move b e c₀ c (c.handleEvent b .fireFuturePreprepareTimer)

abbrev Moves (b : Backend) (e : Event) (c₀ : Core) : Core → Core → Prop :=
  Relation.ReflTransGen (Move b e c₀)

/-- The message of an event comes from a validator, if the core may take it in. -/
def Vouched (c : Core) (m : Message) : Prop :=
  c.current.sequence ≤ m.view.sequence → m.source ∈ c.valSet.members

lemma source_mem_of_verifySignatures (h : m₀.verifySignatures c.validateFn = some m) :
    m.source ∈ (c.signatureValidators m.view).members := by
  have key {data : SigningPayload} {sig : Signature} {a : Address}
      (ha : c.validateFn data sig m.view = some a) : a ∈ (c.signatureValidators m.view).members :=
    (checkValidatorSignature_eq_some ha).2
  cases m₀ <;> simp only [Message.verifySignatures,Option.bind_eq_bind,Option.bind_eq_some_iff,
    Option.pure_def,Option.some.injEq,Option.map_eq_some_iff] at h
  · obtain ⟨_,ha,_,_,_,_,rfl⟩ := h; exact key ha
  · obtain ⟨_,hp,rfl⟩ := h; exact (Prepare.verified hp).member
  · obtain ⟨_,ha,rfl⟩ := h; exact key ha
  · obtain ⟨_,ha,_,_,rfl⟩ := h; exact key ha

lemma vouched_of_verifySignatures (h : m₀.verifySignatures c.validateFn = some m) : c.Vouched m := by
  intro hle
  rw [← signatureValidators_of_le hle]
  exact source_mem_of_verifySignatures h

lemma sequence_of_checkMessage_roundChange (h : c.checkMessage .roundChange view=none) :
    view.sequence=c.current.sequence := by
  have hle := (window_of_checkMessage (.inl h)).1
  unfold checkMessage at h
  split at h
  · simp at h
  rw [if_pos rfl] at h
  split at h
  · simp at h
  · omega

section Moves

variable {b : Backend} {e : Event} {c₀ c' : Core}

lemma brought_eq_some (h : c.brought e = some m) : e = .backlog m ∨
    ∃ m₀, e = .message m₀ ∧ m₀.verifySignatures c.validateFn = some m := by
  cases e with
  | message m₀ =>
    simp only [brought,Option.ite_none_right_eq_some] at h
    exact .inr ⟨m₀,rfl,h.2⟩
  | backlog m₀ => exact .inl (congrArg Event.backlog (Option.some.inj h))
  | request | timeout | finalCommitted | retryTimeout | fireRetryTimer | fireFuturePreprepareTimer =>
    simp [brought] at h

theorem movesRound_eq (h : c.brought e = some m) : e.movesRound = decide (m.code = .roundChange) := by
  rcases brought_eq_some h with rfl | ⟨m₀,rfl,hm⟩
  · rfl
  · rw [Message.verifySignatures_code hm]
    rfl

lemma movesRound_of_brought (h : c.brought e = some m) (hcode : m.code = .roundChange) : e.movesRound=true := by
  rw [movesRound_eq h,hcode]
  rfl

lemma startNewRound_moves (r : ℤ) (hne : r≠0 → r≠c.current.round)
    (hnext : r≠0 → r = c.current.round+1 ∨ r = c.roundChangeSet.getMinRoundChange c.current.round)
    (hround : e.movesRound=false → r=0) (hquiet : c.effects = []) (hstart : c.current=c₀.current) :
    Moves b e c₀ c (c.startNewRound b r) := by
  unfold startNewRound
  split
  · exact .single (.changeSequence r ‹_› hround hquiet hstart)
  split
  · split
    · exact .refl
    split
    · exact .refl
    · rename_i hr _
      have := hne hr
      exact .single (.changeRound r ‹_› (by omega) (by simpa using mt hround hr) (hnext hr) hquiet hstart)
  · exact .refl

lemma enterRound_state (b : Backend) (c : Core) (r : ℤ) : (c.enterRound b r).state = .acceptRequest := by
  unfold enterRound resetRoundChanges
  dsimp only
  split <;> exact setState_state _ _

lemma enterRound_current (b : Backend) (c : Core) (r : ℤ) : (c.enterRound b r).current = c.current := by
  unfold enterRound resetRoundChanges
  dsimp only
  split <;> exact setState_current _ _

lemma startNewRound_state (r : ℤ) : c.startNewRound b r=c ∨ (c.startNewRound b r).state = .acceptRequest := by
  unfold startNewRound
  split
  · exact .inr (enterRound_state b _ r)
  split
  · split
    · exact .inl rfl
    split
    · exact .inl rfl
    · exact .inr (enterRound_state b _ r)
  · exact .inl rfl

lemma newRound_moves (r : ℤ) (hne : r≠c.current.round)
    (hnext : r = c.current.round+1 ∨ r = c.roundChangeSet.getMinRoundChange c.current.round)
    (hmoves : e.movesRound=true) (hquiet : c.effects = []) (hstart : c.current=c₀.current) :
    Moves b e c₀ c ((c.startNewRound b r).broadcastRoundChange r) := by
  refine (startNewRound_moves r (fun _ => hne) (fun _ => hnext) (by simp [hmoves]) hquiet hstart).tail
    (.ask r fun heq => .inl ?_)
  refine (startNewRound_state r).resolve_left fun hsame => ?_
  rw [hsame] at heq
  exact hne heq

lemma handlePreprepareMsg_moves {m : Preprepare} (hbrought : c.brought e = some (.preprepare m))
    (hmember : m.source ∈ c.valSet.members) (hview : m.view=c.currentView) :
    Moves b e c c (c.handlePreprepareMsg b m).1 := by
  unfold handlePreprepareMsg
  split
  · exact .refl
  split
  · exact .refl
  rename_i hnumber
  split
  · exact .refl
  split
  · exact .single (.wait m rfl hbrought hmember hview)
  · exact .refl
  · dsimp only
    split
    · exact .single (.accept m rfl hbrought hmember hview ‹_› (not_not.mp hnumber))
    · exact .refl

lemma handlePrepareMsg_moves {m : Prepare} (hbrought : c.brought e = some (.prepare m))
    (hmember : m.source ∈ c.valSet.members) (hview : m.view=c.currentView)
    (hstate : c.state = .preprepared) (hquiet : c.effects = []) : Moves b e c c (c.handlePrepareMsg m).1 := by
  unfold handlePrepareMsg
  split
  · exact .refl
  rename_i proposal hproposal
  split
  · exact .refl
  rename_i hdigest
  split
  · exact .refl
  have hmove : Move b e c c (c.addPrepare m) :=
    .prepare m proposal rfl hbrought hstate ⟨hmember,hview,hproposal,not_not.mp hdigest⟩
  dsimp only
  split
  · rename_i hquorum
    simp only [hasPrepareQuorum,decide_eq_true_eq] at hquorum
    exact (Relation.ReflTransGen.single hmove).tail
      (.lock proposal hstate hproposal hquorum.1 hquiet)
  · exact .single hmove

lemma handleCommitMsg_moves {m : Commit} (hbrought : c.brought e = some (.commit m))
    (hmember : m.source ∈ c.valSet.members) (hview : m.view=c.currentView)
    (hstate : c.state = .prepared) : Moves b e c c (c.handleCommitMsg b m).1 := by
  unfold handleCommitMsg
  split
  · exact .refl
  rename_i proposal hproposal
  split
  · exact .refl
  rename_i hdigest
  split
  · exact .refl
  have hmove : Move b e c c (c.addCommit m) :=
    .commit m proposal rfl hbrought hstate ⟨hmember,hview,hproposal,not_not.mp hdigest⟩
  dsimp only
  split
  · rename_i hquorum
    rw [commitWBFT_eq]
    have hdecide : Moves b e c c ((c.addCommit m).handOver proposal) :=
      (Relation.ReflTransGen.single hmove).tail (.decide proposal hstate hproposal hquorum)
    split
    · exact hdecide.tail (.ask _ fun heq => absurd heq (by omega))
    · exact hdecide
  · exact .single hmove

lemma proposeForRound_moves : Moves b e c₀ c c.proposeForRound.1 := by
  unfold proposeForRound
  split
  · exact .refl
  · dsimp only
    split
    · exact .refl
    · exact .single (.propose _)

lemma handleRoundChangeMsg_moves {m : RoundChange} (hbrought : c.brought e = some (.roundChange m))
    (hmember : m.source ∈ c.valSet.members) (hcheck : c.checkMessage .roundChange m.view=none)
    (hquiet : c.effects = []) : Moves b e c c (c.handleRoundChangeMsg b m).1 := by
  unfold handleRoundChangeMsg
  split
  · exact .refl
  rename_i c' hadd
  refine .head (.file m c' rfl hbrought hmember hcheck hadd) ?_
  dsimp only
  split
  · rename_i hf1
    obtain ⟨rcs,rfl⟩ := addRoundChange_eq_some hadd
    refine newRound_moves _ (RoundChangeSet.getMinRoundChange_ne fun hzero => ?_) (.inr rfl)
      (movesRound_of_brought hbrought rfl) hquiet rfl
    have hsize := ValidatorSet.size_ne_zero_of_members ⟨_,hmember⟩
    rw [hzero] at hf1
    simp only [ValidatorSet.reachesF1,decide_eq_true_eq] at hf1
    omega
  · split
    · exact proposeForRound_moves
    · exact .refl

lemma deliverMessage_moves (hbrought : c.brought e = some m) (hvouched : c.Vouched m)
    (hcheck : c.checkMessage m.code m.view=none) (hquiet : c.effects = []) :
    Moves b e c c (c.deliverMessage b m).1 := by
  have hwindow := (window_of_checkMessage (.inl hcheck)).1
  have hmember := hvouched hwindow
  cases m with
  | preprepare m =>
    exact handlePreprepareMsg_moves hbrought hmember
      (checkMessage_eq_none (by simp [Message.code]) hcheck).1
  | prepare m =>
    obtain ⟨hview,hstate⟩ := checkMessage_eq_none (by simp [Message.code]) hcheck
    exact handlePrepareMsg_moves hbrought hmember hview (by simpa [Message.code] using hstate) hquiet
  | commit m =>
    obtain ⟨hview,hstate⟩ := checkMessage_eq_none (by simp [Message.code]) hcheck
    exact handleCommitMsg_moves hbrought hmember hview (by simpa [Message.code] using hstate)
  | roundChange m => exact handleRoundChangeMsg_moves hbrought hmember hcheck hquiet

lemma handleDecodedMessage_moves (hbrought : c.brought e = some m)
    (hvouched : c.Vouched m) (hquiet : c.effects = []) : Moves b e c c (c.handleDecodedMessage b m).1 := by
  unfold handleDecodedMessage
  split
  · exact deliverMessage_moves hbrought hvouched ‹_› hquiet
  · rename_i hcheck
    exact .single (.backlog m rfl hbrought (hvouched (window_of_checkMessage (.inr hcheck)).1) hcheck)
  · exact .single (.extraSeal m rfl hbrought ‹_›)
  · exact .refl

/-- Every event is a sequence of moves, provided a message from the backlog is vouched for. -/
theorem handleEvent_moves (b : Backend) (c : Core) (e : Event) (hquiet : c.effects = [])
    (hbacklog : ∀ m, e = .backlog m → c.Vouched m) : Moves b e c c (c.handleEvent b e) := by
  cases e with
  | message m =>
    simp only [handleEvent,handleEncodedMsg]
    split
    · exact .refl
    rename_i hdecodes
    split
    · exact .refl
    · rename_i m' hm'
      have hbrought : c.brought (.message m) = some m' := by
        rw [brought,if_pos (by simpa using hdecodes),hm']
      exact handleDecodedMessage_moves hbrought (vouched_of_verifySignatures hm') hquiet
  | backlog m => exact handleDecodedMessage_moves rfl (hbacklog m rfl) hquiet
  | request proposal =>
    simp only [handleEvent,handleRequest]
    split
    · exact .single (.store proposal)
    · exact .refl
    · have hmove : Move b (.request proposal) c c
          { c with current := { c.current with pendingRequest := some proposal } } := .request proposal
      split
      · exact (Relation.ReflTransGen.single hmove).tail (.propose _)
      · exact .single hmove
  | timeout => exact newRound_moves _ (by omega) (.inl rfl) (by simp [Event.movesRound]) hquiet rfl
  | finalCommitted => exact startNewRound_moves 0 (by simp) (by simp) (fun _ => rfl) hquiet rfl
  | retryTimeout r => exact .single (.ask r fun heq => .inr ⟨rfl,by simpa using heq⟩)
  | fireRetryTimer => exact .single .fireRetry
  | fireFuturePreprepareTimer => exact .single .firePreprepare

lemma Moves.keeps (hI : ∀ c c', I c → Move b e c₀ c c' → I c') (h : Moves b e c₀ c c') (hc : I c) : I c' := by
  induction h with
  | refl => exact hc
  | tail _ hmove ih => exact hI _ _ ih hmove

end Moves

lemma addToExtraSeal_eq (c : Core) (m : Message) :
    ∃ p q, (c.addToExtraSeal m).1 = { c with prepareExtraSeals := p, commitExtraSeals := q } := by
  unfold addToExtraSeal
  split
  · exact ⟨_,_,rfl⟩
  · exact ⟨_,_,rfl⟩
  · split
    · split_ifs <;> exact ⟨_,_,rfl⟩
    · split_ifs <;> exact ⟨_,_,rfl⟩
    · exact ⟨_,_,rfl⟩

/-- A message the core will handle without another look at its signature. -/
def Due (c : Core) (m : Message) : Prop :=
  .backlog m ∈ c.posted ∨ ∃ p, c.timers.futurePreprepare = some p ∧ m = .preprepare p

/-- A due message is not of the future, and one of the current sequence is from a validator. -/
def DueInTime (c : Core) (m : Message) : Prop :=
  m.view.sequence ≤ c.current.sequence ∧ c.Vouched m

/-- The backlog while its sources are looked through: those in `srcs` are still to come, the others
are validators. -/
structure Sifted (c : Core) (srcs : List Address) (s : BacklogState) : Prop where
  key : ∀ en ∈ s.backlogs.entries, ∀ x ∈ en.2, x.1.source=en.1
  member : ∀ en ∈ s.backlogs.entries, en.1 ∈ srcs ∨ en.1 ∈ c.valSet.members
  posted : ∀ m, .backlog m ∈ s.posted → c.DueInTime m

lemma sequence_le_of_checkMessage {code : Code}
    (h : c.checkMessage code view=none ∨ c.checkMessage code view = some .extraSealMessage) :
    view.sequence ≤ c.current.sequence := by
  by_contra hlt
  have hgt : view.cmp c.currentView = .gt := View.cmp_eq_gt.mpr (.inl (by simpa [currentView] using hlt))
  unfold checkMessage at h
  simp only [show c.current.sequence<view.sequence by omega,hgt,if_true] at h
  split at h <;> simp at h

lemma drain_out (c : Core) (fuel : ℕ) (d : Drained) :
    ∀ m ∈ (c.drain fuel d).out, m ∈ d.out ∨ m.view.sequence ≤ c.current.sequence := by
  induction fuel generalizing d with
  | zero => exact fun m hm => .inl hm
  | succ fuel ih =>
    unfold drain
    split
    · exact fun m hm => .inl hm
    · rename_i m prio rest hpop
      have posted (hle : m.view.sequence ≤ c.current.sequence) :
          ∀ x ∈ (c.drain fuel ⟨rest,d.keys.erase (backlogKey m),m::d.out⟩).out,
            x ∈ d.out ∨ x.view.sequence ≤ c.current.sequence := by
        intro x hx
        rcases ih _ x hx with hx | hx
        · rcases List.mem_cons.mp hx with rfl | hx
          · exact .inr hle
          · exact .inl hx
        · exact .inr hx
      split
      · exact fun x hx => .inl hx
      · exact posted (sequence_le_of_checkMessage (.inl ‹_›))
      · exact posted (sequence_le_of_checkMessage (.inr ‹_›))
      · exact fun x hx => ih ⟨rest,d.keys.erase (backlogKey m),d.out⟩ x hx

lemma key_of_lookup {backlogs : AList fun _ : Address => Prque Message}
    (hkey : ∀ en ∈ backlogs.entries, ∀ x ∈ en.2, x.1.source=en.1) {x : Message × ℤ}
    (h : x ∈ (backlogs.lookup src).getD []) : x.1.source=src := by
  cases hl : backlogs.lookup src with
  | none => simp [hl] at h
  | some q =>
    simp only [hl,Option.getD_some] at h
    exact hkey ⟨src,q⟩ (AList.mem_lookup_iff.mp hl) x h

lemma Sifted.processSource (h : c.Sifted (src::srcs) s) : c.Sifted srcs (c.processSource s src) := by
  have hrest {en} (hen : en ∈ List.kerase src s.backlogs.entries) :
      en ∈ s.backlogs.entries ∧ en.1≠src := by
    refine ⟨(List.kerase_sublist _ _).subset hen,fun heq => ?_⟩
    have hkeys := List.mem_keys_of_mem hen
    rw [heq] at hkeys
    exact List.notMem_keys_kerase src s.backlogs.nodupKeys hkeys
  have hmember {en} (hen : en ∈ List.kerase src s.backlogs.entries) :
      en.1 ∈ srcs ∨ en.1 ∈ c.valSet.members := by
    obtain ⟨hmem,hne⟩ := hrest hen
    exact (h.member en hmem).imp_left fun hin => (List.mem_cons.mp hin).resolve_left hne
  unfold Core.processSource
  split
  · exact ⟨fun en hen => h.key en (hrest hen).1,fun en hen => hmember hen,h.posted⟩
  · rename_i val hval
    have hin : src ∈ c.valSet.members := ValidatorSet.mem_members_of_getByAddress (by simp [hval])
    obtain ⟨hqueue,hout⟩ := c.drain_subset ((s.backlogs.lookup src).getD []).length
      ⟨(s.backlogs.lookup src).getD [],(s.backlogKeys.lookup src).getD [],[]⟩
    have hlate := c.drain_out ((s.backlogs.lookup src).getD []).length
      ⟨(s.backlogs.lookup src).getD [],(s.backlogKeys.lookup src).getD [],[]⟩
    refine ⟨fun en hen x hx => ?_,fun en hen => ?_,fun m hm => ?_⟩
    · rw [AList.entries_insert] at hen
      rcases List.mem_cons.mp hen with rfl | hen
      · exact key_of_lookup h.key (hqueue hx)
      · exact h.key en (hrest hen).1 x hx
    · rw [AList.entries_insert] at hen
      rcases List.mem_cons.mp hen with rfl | hen
      · exact .inr hin
      · exact hmember hen
    · rcases List.mem_append.mp hm with hm | hm
      · exact h.posted m hm
      · obtain ⟨x,hx,heq⟩ := List.mem_map.mp hm
        obtain rfl : x=m := by simpa using heq
        obtain ⟨prio,hp⟩ := (hout x hx).resolve_left (by simp)
        exact ⟨(hlate x hx).resolve_left (by simp),fun _ => key_of_lookup h.key hp ▸ hin⟩

lemma Sifted.foldl (h : c.Sifted srcs s) : c.Sifted [] (srcs.foldl c.processSource s) := by
  induction srcs generalizing s with
  | nil => exact h
  | cons src srcs ih => exact ih h.processSource

/-- Queued messages are from validators and filed under their sources, due ones are in time. -/
structure Filed (c : Core) : Prop where
  key : ∀ en ∈ c.backlogs.entries, ∀ x ∈ en.2, x.1.source=en.1
  member : ∀ en ∈ c.backlogs.entries, en.1 ∈ c.valSet.members
  due : ∀ m, c.Due m → c.DueInTime m

theorem filed_setState (st : State) (hkey : ∀ en ∈ c.backlogs.entries, ∀ x ∈ en.2, x.1.source=en.1)
    (hdue : ∀ m, c.Due m → c.DueInTime m) : (c.setState st).Filed := by
  have key (c' : Core) (hb : c'.backlogs=c.backlogs) (hv : c'.valSet=c.valSet)
      (hc : c'.current=c.current) (ht : c'.timers=c.timers)
      (hp : ∀ m, .backlog m ∈ c'.posted → .backlog m ∈ c.posted) : c'.processBacklog.Filed := by
    have hin {m : Message} (h : c.DueInTime m) : c'.DueInTime m := by
      unfold DueInTime Vouched
      rw [hv,hc]
      exact h
    have hs : c'.Sifted c'.backlogs.entries.keys ⟨c'.backlogs,c'.backlogKeys,c'.posted⟩ :=
      ⟨hb ▸ hkey,fun en hen => .inl (List.mem_keys_of_mem hen),fun m hm => hin (hdue m (.inl (hp m hm)))⟩
    refine ⟨hs.foldl.key,fun en hen => (hs.foldl.member en hen).resolve_left (by simp),fun m hm => ?_⟩
    rcases hm with hm | ⟨p,hp',rfl⟩
    · exact hs.foldl.posted m hm
    · exact hin (hdue _ (.inr ⟨p,ht ▸ hp',rfl⟩))
  unfold setState
  split
  · exact key _ rfl rfl rfl rfl fun m hm => drainRequests_backlog _ _ _ _ hm
  · exact key _ rfl rfl rfl rfl fun m hm => hm

section Filed

variable {b : Backend} {e : Event} {c₀ c' : Core}

section
variable (h : c.Filed)
include h

theorem Filed.congr (hbacklogs : c'.backlogs=c.backlogs) (hval : c'.valSet.validators=c.valSet.validators)
    (hseq : c'.current.sequence=c.current.sequence) (hdue : ∀ m, c'.Due m → c.Due m) : c'.Filed := by
  have hm := ValidatorSet.members_eq_of_validators hval
  refine ⟨hbacklogs ▸ h.key,fun en hen => hm ▸ h.member en (hbacklogs ▸ hen),fun m hd => ?_⟩
  unfold DueInTime Vouched
  rw [hseq,hm]
  exact h.due m (hdue m hd)

lemma Filed.setState (st : State) : (c.setState st).Filed := filed_setState st h.key h.due

lemma Filed.addToBacklog (hmember : m.source ∈ c.valSet.members) : (c.addToBacklog m).Filed := by
  refine ⟨fun en hen x hx => ?_,fun en hen => ?_,h.due⟩ <;> simp only [Core.addToBacklog] at hen
  · split at hen
    · rw [AList.entries_insert] at hen
      rcases List.mem_cons.mp hen with rfl | hen
      · rcases List.mem_cons.mp hx with rfl | hx
        · rfl
        · exact key_of_lookup h.key hx
      · exact h.key en ((List.kerase_sublist _ _).subset hen) x hx
    · exact h.key en hen x hx
  · split at hen
    · rw [AList.entries_insert] at hen
      rcases List.mem_cons.mp hen with rfl | hen
      · exact hmember
      · exact h.member en ((List.kerase_sublist _ _).subset hen)
    · exact h.member en hen

lemma Filed.extraSeal (m : Message) : (c.addToExtraSeal m).1.Filed := by
  obtain ⟨p,q,heq⟩ := addToExtraSeal_eq c m
  rw [heq]
  exact h.congr rfl rfl rfl fun _ h => h

lemma Filed.newRoundChangeTimer : c.newRoundChangeTimer.Filed := by
  refine h.congr rfl rfl rfl fun m hm => ?_
  rcases hm with hm | ⟨p,hp,_⟩
  · exact .inl hm
  · simp [Core.newRoundChangeTimer] at hp

lemma Filed.emit (x : Effect) : (c.emit x).Filed := h.congr rfl rfl rfl fun _ h => h

lemma Filed.broadcast (m : Message) : (c.broadcast m).Filed := h.congr rfl rfl rfl fun _ h => h

lemma Filed.broadcastRoundChange (r : ℤ) : (c.broadcastRoundChange r).Filed := by
  have hretry : c.newRetrySendingRoundChangeTimer.Filed := h.congr rfl rfl rfl fun _ h => h
  unfold Core.broadcastRoundChange
  dsimp only
  split
  · exact hretry
  · exact (hretry.emit _).broadcast _

end

theorem filed_enterRound (r : ℤ) (hkey : ∀ en ∈ c.backlogs.entries, ∀ x ∈ en.2, x.1.source=en.1)
    (hdue : ∀ m, c.Due m → c.DueInTime m) : (c.enterRound b r).Filed := by
  let c₁ := { c with valSet := c.valSet.calcProposer b.lastProposer (uint64 c.current.round) }
  have h₁ : (c₁.setState .acceptRequest).Filed := filed_setState (c := c₁) _ hkey hdue
  have h₂ : ((c₁.setState .acceptRequest).resetRoundChanges b r).Filed := by
    unfold resetRoundChanges
    split <;> exact h₁.congr rfl rfl rfl fun _ h => h
  exact h₂.newRoundChangeTimer

lemma due_of_fireRetry (h : (c.handleEvent b .fireRetryTimer).Due m) : c.Due m := by
  refine h.imp_left fun hm => ?_
  simp only [handleEvent] at hm
  split at hm <;> simpa using hm

lemma due_of_firePreprepare (h : (c.handleEvent b .fireFuturePreprepareTimer).Due m) : c.Due m := by
  rcases h with hm | ⟨p,hp,_⟩
  · simp only [handleEvent] at hm
    split at hm
    · rename_i p hp
      rcases List.mem_cons.mp hm with heq | hm
      · exact .inr ⟨p,hp,by simpa using heq⟩
      · exact .inl hm
    · exact .inl hm
  · simp [handleEvent] at hp

lemma Filed.move (h : c.Filed) (hmove : Move b e c₀ c c') : c'.Filed := by
  cases hmove with
  | backlog m _ _ hmember => exact h.addToBacklog hmember
  | extraSeal m => exact h.extraSeal m
  | wait m _ _ hmember hview =>
    refine ⟨h.key,h.member,fun x hx => ?_⟩
    rcases hx with hx | ⟨p,hp,rfl⟩
    · exact h.due x (.inl hx)
    · obtain rfl : m=p := by simpa using hp
      exact ⟨(congrArg View.sequence hview).le,fun _ => hmember⟩
  | accept m =>
    have hpre : ({ c.newRoundChangeTimer with current := { c.current with preprepare := some m } } :
        Core).Filed := h.newRoundChangeTimer.congr rfl rfl rfl fun _ h => h
    exact (((hpre.setState _).emit _).emit _).broadcast _
  | prepare | commit | request | store => exact h.congr rfl rfl rfl fun _ h => h
  | lock proposal =>
    have hlock : (c.lockProposal proposal).Filed := h.congr rfl rfl rfl fun _ h => h
    exact (((hlock.setState _).emit _).emit _).broadcast _
  | decide proposal => exact (h.setState _).emit _
  | file m _ _ _ _ _ hadd =>
    obtain ⟨rcs,rfl⟩ := addRoundChange_eq_some hadd
    exact h.congr rfl rfl rfl fun _ h => h
  | changeRound r =>
    have hround : (c.changeRound b r.toNat).Filed := by
      unfold Core.changeRound discardBadLock
      split <;> exact h.congr rfl rfl rfl fun _ h => h
    exact filed_enterRound r hround.key hround.due
  | changeSequence r hhead =>
    refine filed_enterRound r h.key fun m hm => ?_
    have hle := (h.due m hm).1
    exact ⟨by simp only [Core.changeSequence,newRoundState]; omega,
      fun hge => by simp only [Core.changeSequence,newRoundState] at hge; omega⟩
  | ask r => exact h.broadcastRoundChange r
  | propose r =>
    unfold sendPreprepareMsg
    split
    · exact ((h.emit _).broadcast _).congr rfl rfl rfl fun _ h => h
    · exact h
  | fireRetry => exact h.congr rfl rfl rfl fun _ => due_of_fireRetry
  | firePreprepare => exact h.congr rfl rfl rfl fun _ => due_of_firePreprepare

end Filed

lemma filed_start (a : Address) (key : PublicKey) (b : Backend) : (start a key b).Filed := by
  refine filed_enterRound 0 (fun en hen => by simp at hen) fun m hm => ?_
  rcases hm with hm | ⟨p,hp,_⟩
  · simp at hm
  · simp at hp

lemma Filed.receive (h : c.Filed) (e : Event) : (c.receive e).Filed := by
  refine h.congr rfl rfl rfl fun m hm => ?_
  rcases hm with hm | ⟨p,hp,rfl⟩
  · exact .inl (List.mem_of_mem_erase hm)
  · refine .inr ⟨p,?_,rfl⟩
    simp only [Core.receive] at hp
    split at hp <;> exact hp

end Core

namespace Net

variable {cfg : Config} {backends : Address → Backend} {ok : Net → Input → Prop} {net : Net} {i : Input}

lemma moves_of_filed (hfiled : (net.cores i.node).Filed) (hen : net.Enabled cfg i) :
    Core.Moves i.backend i.event ((net.cores i.node).receive i.event)
      ((net.cores i.node).receive i.event) (net.coreAfter i) := by
  refine Core.handleEvent_moves _ _ _ rfl fun m he => ?_
  have hev := hen.2
  rw [he] at hev
  exact (hfiled.due m (.inl hev)).2

section
variable (h : net.Reachable cfg backends ok)
include h

lemma Reachable.filed (a : Address) : (net.cores a).Filed := by
  induction h generalizing a with
  | init => exact Core.filed_start _ _ _
  | step _ hen _ ih =>
    refine forall_cores_next (P := fun _ c => c.Filed) ?_ (fun a _ => ih a) a
    exact (moves_of_filed (ih _) hen).keeps (fun _ _ => Core.Filed.move) ((ih _).receive _)

lemma Reachable.moves (hen : net.Enabled cfg i) : Core.Moves i.backend i.event ((net.cores i.node).receive i.event)
      ((net.cores i.node).receive i.event) (net.coreAfter i) := moves_of_filed (h.filed _) hen

end

end Net

end StableNet.Wbft
