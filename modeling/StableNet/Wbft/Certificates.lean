import StableNet.Wbft.CatchUp

/-! The certificates of ROUND-CHANGEs. They fit the lock as long as it is neither discarded as bad nor left behind by
a late change of round. -/
namespace StableNet.Wbft
open Chain Wbft.Core
variable {v w : ValidatorSet} {block : Block} {m : RoundChange} {s : RoundState} {x : Message} {r : ℕ}

/-- PREPAREs from a quorum of validators, all of one view and for one block. -/
structure Certificate (v : ValidatorSet) (view : View) (block : Block) (ps : List Prepare) : Prop where
  quorum : QuorumOf (·.source) v.quorumSize (fun _ => True) ps
  matching : ∀ p ∈ ps, p.source ∈ v.members ∧ p.view=view ∧ p.digest=block.hash

/-- A ROUND-CHANGE announces nothing, or an earlier prepared round with its certificate. -/
def Coherent (v : ValidatorSet) (m : RoundChange) : Prop :=
  m.preparedRound=none ∧ m.preparedBlock=none ∧ m.justification = [] ∨
  ∃ pr block, m.preparedRound = some pr ∧ m.preparedBlock = some block ∧ pr < m.round ∧
    Certificate v ⟨m.sequence,pr⟩ block m.justification

/-- A prepared round is not below another one, nil being below all. -/
def NotBelow (p q : Option ℕ) : Prop := ∀ r ∈ q, ∃ r' ∈ p, r ≤ r'

lemma NotBelow.refl (p : Option ℕ) : NotBelow p p := fun r hr => ⟨r,hr,le_rfl⟩

lemma NotBelow.trans {p q r : Option ℕ} (h : NotBelow p q) (h' : NotBelow q r) : NotBelow p r := by
  intro x hx
  obtain ⟨y,hy,hxy⟩ := h' x hx
  obtain ⟨z,hz,hyz⟩ := h y hy
  exact ⟨z,hz,hxy.trans hyz⟩

lemma Certificate.of_validators {view : View} {ps : List Prepare}
    (h : Certificate v view block ps) (hval : w.validators=v.validators) : Certificate w view block ps := by
  refine ⟨?_,fun p hp => ?_⟩
  · rw [ValidatorSet.quorumSize_eq_of_validators hval]
    exact h.quorum
  · rw [ValidatorSet.members_eq_of_validators hval]
    exact h.matching p hp

lemma Coherent.of_validators (h : Coherent v m) (hval : w.validators=v.validators) : Coherent w m := by
  rcases h with h | ⟨pr,block,hpr,hblock,hlt,hcert⟩
  · exact .inl h
  · exact .inr ⟨pr,block,hpr,hblock,hlt,hcert.of_validators hval⟩

namespace Core

/-- The core hands the ROUND-CHANGE to its backend while it handles the current event. -/
def Announces (c : Core) (m : RoundChange) : Prop := .broadcast (.roundChange m) ∈ c.effects

def lock (c : Core) : Option ℕ × Option Block := (c.current.preparedRound,c.current.preparedBlock)

structure SameLock (c c' : Core) : Prop where
  lock : c'.lock=c.lock
  prepares : c'.wbftPreparedPrepares=c.wbftPreparedPrepares
  view : c'.currentView=c.currentView
  validators : c'.valSet.validators=c.valSet.validators

/-- What a move does to the lock of a core and to the ROUND-CHANGEs it sends. -/
inductive Relocks (b : Backend) (e : Event) (c₀ c c' : Core) : Prop
  | keep (hsame : SameLock c c') (hstate : c'.state = .acceptRequest → c.state = .acceptRequest)
      (hsent : ∀ m, c'.Announces m → c.Announces m)
  | lock (block : Block) (hproposal : c.current.proposal = some block)
      (hquorum : c.valSet.quorumSize ≤ c.current.wbftPrepares.size)
      (hlock : c'.lock = (some c.current.round,some block))
      (hprepares : c'.wbftPreparedPrepares=c.current.wbftPrepares.values)
      (hview : c'.currentView=c.currentView) (hstate : c'.state = .prepared)
      (hval : c'.valSet.validators=c.valSet.validators) (hsent : ∀ m, ¬ c'.Announces m)
  | changeRound (r : ℤ) (hstart : c.current=c₀.current) (hlt : (c.current.round : ℤ)<r)
      (hmoves : e.movesRound=true)
      (hnext : r = c.current.round+1 ∨ r = c.roundChangeSet.getMinRoundChange c.current.round)
      (hlock : c'.lock = (c.discardBadLock b).lock)
      (hprepares : uint64 r≠0 → c'.wbftPreparedPrepares=c.wbftPreparedPrepares)
      (hview : c'.currentView = ⟨c.current.sequence,r.toNat⟩)
      (hval : c'.valSet.validators=c.valSet.validators) (hsent : ∀ m, ¬ c'.Announces m)
  | changeSequence (s : ℕ) (hstart : c.current=c₀.current) (hlt : c.current.sequence<s)
      (hmoves : e.movesRound=true → c.current.sequence ≤ b.lastProposal.number)
      (hlock : c'.lock = (none,none)) (hprepares : e.movesRound=false → c'.wbftPreparedPrepares = [])
      (hview : c'.currentView = ⟨s,0⟩) (hsent : ∀ m, ¬ c'.Announces m)
  | ask (r : ℕ) (hle : c.current.round ≤ r)
      (hask : r=c.current.round → c.state = .acceptRequest ∨ c=c₀ ∧ e = .retryTimeout c.current.round)
      (hsame : SameLock c c') (hstate : c'.state=c.state)
      (hsent : ∀ m, c'.Announces m → c.Announces m ∨ m = c.signRoundChange r)

section Relocks

variable {b : Backend} {e : Event} {c₀ c c' : Core}

lemma Relocks.of_same (hsame : SameLock c c') (hstate : c'.state=c.state)
    (hsent : ∀ m, c'.Announces m → c.Announces m) : Relocks b e c₀ c c' := .keep hsame (fun h => hstate ▸ h) hsent

lemma lock_eq (h : c.current=s) : c.lock = (s.preparedRound,s.preparedBlock) := by
  rw [← h]
  rfl

lemma currentView_eq (h : c.current=s) : c.currentView = ⟨s.sequence,s.round⟩ := by
  rw [← h]
  rfl

lemma not_announces (h : c.effects = []) (m : RoundChange) : ¬ c.Announces m := by
  simp [Announces,h]

lemma announces_broadcast (h : (c.broadcast x).Announces m) : c.Announces m ∨ x = .roundChange m := by
  unfold Announces broadcast at h
  dsimp only at h
  split at h
  · rcases List.mem_cons.mp h with h | h
    · exact .inr (Effect.broadcast.inj h).symm
    · exact .inl h
  · exact .inl h

lemma announces_vote {s : SealPreimage} {p : SigningPayload}
    (h : (((c.emit (.sealed s)).emit (.sign p)).broadcast x).Announces m) (hx : x.code ≠ .roundChange) :
    c.Announces m := by
  rcases announces_broadcast h with h | rfl
  · simpa [Announces,emit] using h
  · exact absurd rfl hx

lemma enterRound_effects (b : Backend) (c : Core) (r : ℤ) : (c.enterRound b r).effects = c.effects := by
  unfold enterRound resetRoundChanges
  dsimp only
  split <;> exact setState_effects _ _

lemma enterRound_wbftPreparedPrepares (b : Backend) (c : Core) (r : ℤ) :
    (c.enterRound b r).wbftPreparedPrepares = if uint64 r=0 then [] else c.wbftPreparedPrepares := by
  unfold enterRound resetRoundChanges
  dsimp only
  split
  · rfl
  · exact setState_wbftPreparedPrepares _ _

lemma discardBadLock_effects (b : Backend) (c : Core) : (c.discardBadLock b).effects = c.effects := by
  unfold discardBadLock
  split <;> rfl

lemma discardBadLock_wbftPreparedPrepares (b : Backend) (c : Core) :
    (c.discardBadLock b).wbftPreparedPrepares = c.wbftPreparedPrepares := by
  unfold discardBadLock
  split <;> rfl

lemma Move.relocks (h : Move b e c₀ c c') : Relocks b e c₀ c c' := by
  cases h with
  | backlog | wait | prepare | commit | request | store | fireRetry | firePreprepare =>
    exact .of_same ⟨rfl,rfl,rfl,rfl⟩ rfl fun _ h => h
  | extraSeal m =>
    obtain ⟨p,q,heq⟩ := addToExtraSeal_eq c m
    rw [heq]
    exact .of_same ⟨rfl,rfl,rfl,rfl⟩ rfl fun _ h => h
  | accept m =>
    let c₁ : Core := { c.newRoundChangeTimer with current := { c.current with preprepare := some m } }
    have hcurrent : (c₁.setState .preprepared).current = c₁.current := setState_current _ _
    refine .keep ⟨?_,setState_wbftPreparedPrepares c₁ _,?_,congrArg _ (setState_valSet c₁ _)⟩ (fun hs => ?_)
      fun m' hm' => ?_
    · exact (lock_eq hcurrent).trans rfl
    · exact (currentView_eq hcurrent).trans rfl
    · exact absurd ((setState_state c₁ .preprepared).symm.trans hs) (by simp)
    · have hm' := announces_vote hm' (by simp [Message.code])
      unfold Announces at hm'
      rwa [setState_effects] at hm'
  | lock block hstate hproposal hquorum hquiet =>
    have hcurrent : ((c.lockProposal block).setState .prepared).current = (c.lockProposal block).current :=
      setState_current _ _
    refine .lock block hproposal hquorum ?_ (setState_wbftPreparedPrepares _ _) ?_ (setState_state _ _)
      (congrArg _ (setState_valSet _ _)) fun m hm => ?_
    · exact (lock_eq hcurrent).trans rfl
    · exact (currentView_eq hcurrent).trans rfl
    · have hm := announces_vote hm (by simp [Message.code])
      unfold Announces at hm
      rw [setState_effects] at hm
      exact not_announces hquiet m hm
  | decide block =>
    have hcurrent : (c.setState .committed).current = c.current := setState_current _ _
    refine .keep ⟨?_,setState_wbftPreparedPrepares c _,?_,congrArg _ (setState_valSet c _)⟩ (fun hs => ?_)
      fun m hm => ?_
    · exact (lock_eq hcurrent).trans rfl
    · exact (currentView_eq hcurrent).trans rfl
    · exact absurd ((setState_state c .committed).symm.trans hs) (by simp)
    · simpa [Announces,handOver,emit] using hm
  | file m _ _ _ _ _ hadd =>
    obtain ⟨rcs,rfl⟩ := addRoundChange_eq_some hadd
    exact .of_same ⟨rfl,rfl,rfl,rfl⟩ rfl fun _ h => h
  | changeRound r hhead hlt hmoves hnext hquiet hstart =>
    have hcurrent := enterRound_current b (c.changeRound b r.toNat) r
    refine .changeRound r hstart hlt hmoves hnext ?_ (fun hr => ?_) ?_
      ((enterRound_frame b _ r).validators.trans (discardBadLock_frame b c).validators)
      (not_announces ?_)
    · exact (lock_eq hcurrent).trans rfl
    · rw [enterRound_wbftPreparedPrepares,if_neg hr]
      exact discardBadLock_wbftPreparedPrepares b c
    · have hsequence : (c.discardBadLock b).current.sequence = c.current.sequence := by
        unfold discardBadLock
        split <;> rfl
      rw [← hsequence]
      exact (currentView_eq hcurrent).trans rfl
    · rw [enterRound_effects]
      exact (discardBadLock_effects b c).trans hquiet
  | changeSequence r hhead hround hquiet hstart =>
    have hcurrent := enterRound_current b (c.changeSequence b) r
    refine .changeSequence (b.lastProposal.number+1) hstart (by omega) (fun _ => hhead) ?_ (fun hm => ?_) ?_
      (not_announces ?_)
    · exact (lock_eq hcurrent).trans rfl
    · rw [hround hm,enterRound_wbftPreparedPrepares]
      rfl
    · exact (currentView_eq hcurrent).trans rfl
    · rw [enterRound_effects]
      unfold Core.changeSequence addEffectiveSealToExtraSeal
      exact hquiet
  | ask r hask =>
    unfold broadcastRoundChange
    dsimp only
    split
    · exact .of_same ⟨rfl,rfl,rfl,rfl⟩ rfl fun _ h => h
    · rename_i hle
      have hr : (r.toNat : ℤ) = r := Int.toNat_of_nonneg (by simp [newRetrySendingRoundChangeTimer] at hle; omega)
      refine .ask r.toNat ?_ (fun h => hask (by omega)) ⟨rfl,rfl,rfl,rfl⟩ rfl fun m hm => ?_
      · simp only [newRetrySendingRoundChangeTimer] at hle
        omega
      · rcases announces_broadcast hm with hm | hm
        · left
          simpa [Announces,emit,newRetrySendingRoundChangeTimer] using hm
        · exact .inr (Message.roundChange.inj hm).symm
  | propose r =>
    unfold sendPreprepareMsg
    split
    · refine .of_same ⟨rfl,rfl,rfl,rfl⟩ rfl fun m hm => ?_
      rcases announces_broadcast (c := c.emit _) hm with hm | hm
      · simpa [Announces,emit] using hm
      · simp at hm
    · exact .of_same ⟨rfl,rfl,rfl,rfl⟩ rfl fun _ h => h

end Relocks

/-- A core is not locked above its round, and what it has announced is its lock. -/
structure Stated (c : Core) : Prop where
  below : ∀ pr ∈ c.current.preparedRound, pr ≤ c.current.round
  sent : ∀ m, c.Announces m → m.preparedRound=c.current.preparedRound ∧ m.sequence=c.current.sequence

section Stated

variable {b : Backend} {e : Event} {c₀ c c' : Core}

lemma preparedRound_of_lock {p : Option ℕ × Option Block} (h : c.lock=p) : c.current.preparedRound=p.1 :=
  congrArg Prod.fst h

lemma preparedRound_discardBadLock (b : Backend) (c : Core) :
    (c.discardBadLock b).current.preparedRound=none ∨ (c.discardBadLock b).lock = c.lock := by
  unfold discardBadLock
  split
  · exact .inl rfl
  · exact .inr rfl

lemma Stated.same (h : c.Stated) (hsame : SameLock c c')
    (hsent : ∀ m, c'.Announces m → c.Announces m ∨ ∃ r, m = c.signRoundChange r) : c'.Stated := by
  have hround : c'.current.round=c.current.round := congrArg View.round hsame.view
  have hprepared : c'.current.preparedRound=c.current.preparedRound := preparedRound_of_lock hsame.lock
  have hsequence : c'.current.sequence=c.current.sequence := congrArg View.sequence hsame.view
  refine ⟨?_,fun m hm => ?_⟩
  · rw [hround,hprepared]
    exact h.below
  · rw [hprepared,hsequence]
    rcases hsent m hm with hm | ⟨r,rfl⟩
    · exact h.sent m hm
    · exact ⟨rfl,rfl⟩

lemma Relocks.stated (hrec : Relocks b e c₀ c c') (h : c.Stated) : c'.Stated := by
  cases hrec with
  | keep hsame _ hsent => exact h.same hsame fun m hm => .inl (hsent m hm)
  | lock block _ _ hlock _ hview _ _ hsent =>
    have hround : c'.current.round=c.current.round := congrArg View.round hview
    refine ⟨fun pr hpr => ?_,fun m hm => absurd hm (hsent m)⟩
    rw [preparedRound_of_lock hlock] at hpr
    rw [hround,Option.some.inj hpr]
  | changeRound r _ hlt _ _ hlock _ hview _ hsent =>
    have hround : c'.current.round=r.toNat := congrArg View.round hview
    refine ⟨fun pr hpr => ?_,fun m hm => absurd hm (hsent m)⟩
    rw [preparedRound_of_lock hlock] at hpr
    rcases preparedRound_discardBadLock b c with hnone | hsame
    · rw [Core.lock,hnone] at hpr
      simp at hpr
    · rw [hsame] at hpr
      have := h.below pr hpr
      omega
  | changeSequence s _ _ _ hlock _ _ hsent =>
    refine ⟨fun pr hpr => ?_,fun m hm => absurd hm (hsent m)⟩
    rw [preparedRound_of_lock hlock] at hpr
    simp at hpr
  | ask r _ _ hsame _ hsent => exact h.same hsame fun m hm => (hsent m hm).imp_right fun h => ⟨r,h⟩

/-- The core has entered a later sequence, or is locked in a round that is not below. -/
def KeepsUp (c₀ c : Core) : Prop :=
  c₀.current.sequence<c.current.sequence ∨ c.current.sequence=c₀.current.sequence ∧
    NotBelow c.current.preparedRound c₀.current.preparedRound

lemma KeepsUp.trans {c₁ : Core} (h : KeepsUp c₀ c₁) (h' : KeepsUp c₁ c) : KeepsUp c₀ c := by
  unfold KeepsUp at *
  rcases h with h | ⟨hseq,hle⟩
  · left
    omega
  · rcases h' with h' | ⟨hseq',hle'⟩
    · left
      omega
    · exact .inr ⟨hseq'.trans hseq,hle'.trans hle⟩

/-- The lock of a core only rises within a sequence, unless its block is found bad. -/
theorem Relocks.keepsUp (hrec : Relocks b e c₀ c c') (h : c.Stated) (hup : KeepsUp c₀ c)
    (hgood : e.movesRound=true → c₀.hasBadLock b=false) : KeepsUp c₀ c' := by
  have hsame (h : SameLock c c') : KeepsUp c c' := by
    refine .inr ⟨congrArg View.sequence h.view,?_⟩
    rw [preparedRound_of_lock h.lock]
    exact .refl _
  cases hrec with
  | keep h | ask r _ _ h => exact hup.trans (hsame h)
  | lock block _ _ hlock _ hview =>
    refine hup.trans (.inr ⟨congrArg View.sequence hview,fun pr hpr => ?_⟩)
    rw [preparedRound_of_lock hlock]
    exact ⟨c.current.round,rfl,h.below pr hpr⟩
  | changeRound r hstart _ hmoves _ hlock _ hview =>
    refine hup.trans (.inr ⟨congrArg View.sequence hview,?_⟩)
    have hkept : c.hasBadLock b=false := by
      rw [← hgood hmoves,hasBadLock,hasBadLock,hstart]
    rw [preparedRound_of_lock hlock,discardBadLock,if_neg (by simp [hkept])]
    exact .refl _
  | changeSequence s _ hlt _ _ _ hview =>
    refine hup.trans (.inl ?_)
    rwa [show c'.current.sequence = s from congrArg View.sequence hview]

end Stated

/-- A core is not locked and keeps no PREPAREs, or is locked in an earlier round, or in its own after
it has accepted a proposal, and keeps the certificate. -/
def Locked (c : Core) : Prop :=
  c.lock = (none,none) ∧ c.wbftPreparedPrepares = [] ∨
  ∃ pr block, c.lock = (some pr,some block) ∧ pr ≤ c.currentView.round ∧
    (c.state = .acceptRequest → pr<c.currentView.round) ∧
    Certificate c.valSet ⟨c.currentView.sequence,pr⟩ block c.wbftPreparedPrepares

/-- An event is tended if rounds fit `uint64`, are changed on a head below the sequence and with a lock
that is not known as bad, and a retry does not find the core locked in the round it is for. -/
structure Tended (b : Backend) (c : Core) (e : Event) : Prop where
  round : c.current.round+1<2^64
  head : e.movesRound=true → b.lastProposal.number<c.current.sequence
  good : e.movesRound=true → c.hasBadLock b=false
  retry : ∀ r ∈ e.retryRound, ∀ pr ∈ c.current.preparedRound, pr<r

instance (b : Backend) (c : Core) (e : Event) : Decidable (Tended b c e) :=
  decidable_of_iff (_ ∧ (_ → _) ∧ (_ → _) ∧ ∀ r ∈ e.retryRound, ∀ pr ∈ c.current.preparedRound, pr<r)
    ⟨fun h => ⟨h.1,h.2.1,h.2.2.1,h.2.2.2⟩,fun h => ⟨h.1,h.2,h.3,h.4⟩⟩

section Locked

variable {b : Backend} {e : Event} {c₀ c c' : Core}

lemma Locked.same (h : c.Locked) (hsame : SameLock c c')
    (hstate : c'.state = .acceptRequest → c.state = .acceptRequest) : c'.Locked := by
  unfold Locked
  rw [hsame.lock,hsame.prepares,hsame.view]
  rcases h with h | ⟨pr,block,hlock,hle,hlt,hcert⟩
  · exact .inl h
  · exact .inr ⟨pr,block,hlock,hle,fun hs => hlt (hstate hs),hcert.of_validators hsame.validators⟩

theorem Polled.certificate (h : Polled c.valSet.members c.voter) (hproposal : c.current.proposal = some block)
    (hquorum : c.valSet.quorumSize ≤ c.current.wbftPrepares.size) :
    Certificate c.valSet c.currentView block c.current.wbftPrepares.values := by
  refine ⟨?_,fun p hp => ?_⟩
  · have hall : c.current.wbftPrepares.All fun a m => m.source=a ∧ True :=
      h.prepares.mono fun _ _ hm => ⟨hm.1,trivial⟩
    exact hall.quorumOf.of_le hquorum
  · obtain ⟨en,hen,rfl⟩ := List.mem_map.mp hp
    obtain ⟨hsource,hmember,hview,hdigest⟩ := h.prepares en hen
    exact ⟨hsource ▸ hmember,hview,hdigest block hproposal⟩

lemma getMinRoundChange_small {rcs : RoundChangeSet} (h : (r : ℤ)<rcs.getMinRoundChange r) :
    rcs.getMinRoundChange r<2^63 := by
  unfold RoundChangeSet.getMinRoundChange at *
  cases hmin : (rcs.higherRounds r).min? with
  | none => simp [hmin] at h
  | some x =>
    obtain ⟨en,_,rfl⟩ := List.mem_map.mp (List.min?_mem hmin)
    rw [hmin,Option.getD_some] at h
    rw [Option.getD_some]
    rcases RoundChangeSet.toInt_eq en.1 with ⟨heq,hlt⟩ | hneg
    · rw [heq]
      exact_mod_cast hlt
    · omega

lemma uint64_ne_zero {r : ℤ} (hlt : (c.current.round : ℤ)<r) (hround : c.current.round+1<2^64)
    (hnext : r = c.current.round+1 ∨ r = c.roundChangeSet.getMinRoundChange c.current.round) : uint64 r≠0 := by
  have hr : r<2^64 := by
    rcases hnext with rfl | rfl
    · exact_mod_cast hround
    · exact (getMinRoundChange_small hlt).trans (by norm_num)
  unfold uint64
  omega

lemma Relocks.locked (hrec : Relocks b e c₀ c c') (h : c.Locked)
    (hpolled : Polled c.valSet.members c.voter) (htended : Tended b c₀ e) : c'.Locked := by
  cases hrec with
  | keep hsame hstate => exact h.same hsame hstate
  | ask r _ _ hsame hstate => exact h.same hsame fun hs => hstate ▸ hs
  | lock block hproposal hquorum hlock hprepares hview hstate hval =>
    refine .inr ⟨c.current.round,block,hlock,?_,?_,?_⟩
    · rw [hview]
      rfl
    · simp [hstate]
    · rw [hview,hprepares]
      exact (hpolled.certificate hproposal hquorum).of_validators hval
  | changeRound r hstart hlt hmoves hnext hlock hprepares hview hval =>
    have hgood : c.hasBadLock b=false := by
      rw [← htended.good hmoves,hasBadLock,hasBadLock,hstart]
    have hround := htended.round
    rw [← hstart] at hround
    rw [discardBadLock,if_neg (by simp [hgood])] at hlock
    unfold Locked
    rw [hlock,hprepares (uint64_ne_zero hlt hround hnext),hview]
    rcases h with h | ⟨pr,block,hlock,hle,_,hcert⟩
    · exact .inl h
    · rw [currentView_round] at hle
      exact .inr ⟨pr,block,hlock,by dsimp only; omega,fun _ => by dsimp only; omega,hcert.of_validators hval⟩
  | changeSequence s hstart _ hhead hlock hprepares =>
    cases hmoves : e.movesRound with
    | true =>
      have hlt := htended.head hmoves
      have hle := hhead hmoves
      rw [hstart] at hle
      omega
    | false => exact .inl ⟨hlock,hprepares hmoves⟩

/-- A ROUND-CHANGE for a round above the lock is coherent. -/
theorem Locked.coherent (h : c.Locked) (hr : ∀ pr ∈ c.current.preparedRound, pr<r) :
    Coherent c.valSet (c.signRoundChange r) := by
  rcases h with ⟨hlock,hnil⟩ | ⟨pr,block,hlock,_,_,hcert⟩
  · exact .inl ⟨congrArg Prod.fst hlock,congrArg Prod.snd hlock,hnil⟩
  · exact .inr ⟨pr,block,congrArg Prod.fst hlock,congrArg Prod.snd hlock,hr pr (congrArg Prod.fst hlock),hcert⟩

lemma Locked.below (h : c.Locked) {pr : ℕ} (hpr : pr ∈ c.current.preparedRound) :
    pr ≤ c.current.round ∧ (c.state = .acceptRequest → pr<c.current.round) := by
  rcases h with ⟨hlock,_⟩ | ⟨pr',block,hlock,hle,hlt,_⟩
  · rw [preparedRound_of_lock hlock] at hpr
    simp at hpr
  · rw [preparedRound_of_lock hlock] at hpr
    obtain rfl : pr'=pr := Option.some.inj hpr
    exact ⟨hle,hlt⟩

lemma Relocks.coherent (hrec : Relocks b e c₀ c c') (h : c.Locked)
    (hsent : ∀ m, c.Announces m → Coherent c.valSet m) (htended : Tended b c₀ e) (m : RoundChange)
    (hm : c'.Announces m) : Coherent c'.valSet m := by
  cases hrec with
  | keep hsame _ hold => exact (hsent m (hold m hm)).of_validators hsame.validators
  | lock _ _ _ _ _ _ _ _ hnone | changeRound _ _ _ _ _ _ _ _ _ hnone | changeSequence _ _ _ _ _ _ _ hnone =>
    exact absurd hm (hnone m)
  | ask r hle hask hsame _ hnew =>
    rcases hnew m hm with hold | rfl
    · exact (hsent m hold).of_validators hsame.validators
    refine (h.coherent fun pr hpr => ?_).of_validators hsame.validators
    obtain ⟨hbelow,hwaiting⟩ := h.below hpr
    by_cases hr : r=c.current.round
    · rcases hask hr with hs | ⟨rfl,he⟩
      · exact hr ▸ hwaiting hs
      · exact hr ▸ htended.retry _ (by simp [he,Event.retryRound]) pr hpr
    · omega

end Locked

end Core

namespace Net

variable {cfg : Config} {backends : Address → Backend} {ok : Net → Input → Prop} {net net' : Net} {i : Input}

/-- The input finds its node as it should be. -/
def Tended (net : Net) (i : Input) : Prop := Core.Tended i.backend (net.cores i.node) i.event

instance (net : Net) (i : Input) : Decidable (net.Tended i) := inferInstanceAs (Decidable (Core.Tended _ _ _))

/-- The input does not change the round of a node locked on a block reported as bad. -/
def Trusted (net : Net) (i : Input) : Prop :=
  i.event.movesRound=true → (net.cores i.node).hasBadLock i.backend=false

/-- One input, trusted if it is for node `a`. -/
def TrustedStep (cfg : Config) (a : Address) (net net' : Net) : Prop :=
  ∃ i, net.Enabled cfg i ∧ (i.node=a → net.Trusted i) ∧ net' = net.next i

lemma init_announces (a : Address) (m : RoundChange) : ¬ ((Net.init cfg backends).cores a).Announces m :=
  not_announces (enterRound_effects (backends a) _ 0) m

lemma init_lock (a : Address) : ((Net.init cfg backends).cores a).lock = (none,none) :=
  lock_eq (enterRound_current (backends a) _ 0)

lemma coherent_of_tended (h : net.Reachable cfg backends Tended) (a : Address) :
    (net.cores a).Locked ∧ ∀ m, (net.cores a).Announces m → Coherent (net.cores a).valSet m := by
  induction h generalizing a with
  | init =>
    refine ⟨.inl ⟨init_lock a,?_⟩,fun m hm => absurd hm (init_announces a m)⟩
    exact enterRound_wbftPreparedPrepares (backends a) _ 0
  | @step net i hreach hen hok ih =>
    refine forall_cores_next (P := fun _ c => c.Locked ∧ ∀ m, c.Announces m → Coherent c.valSet m) ?_
      (fun a _ => ih a) a
    have hself := hreach.disciplined i.node
    have hd := disciplined_receive hself.1 hself.2 i.event
    have htended : Core.Tended i.backend ((net.cores i.node).receive i.event) i.event :=
      ⟨hok.round,hok.head,hok.good,hok.retry⟩
    have hkept := (hreach.moves hen).keeps (I := fun c => (c.Locked ∧
      ∀ m, c.Announces m → Coherent c.valSet m) ∧ c.Disciplined (net.signedBy i.node))
      (fun c c' hc hmove => ⟨⟨hmove.relocks.locked hc.1.1 hc.2.polled htended,
        hmove.relocks.coherent hc.1.1 hc.1.2 htended⟩,hc.2.move hmove⟩)
    refine (hkept ⟨⟨(ih i.node).1.same ⟨rfl,rfl,rfl,rfl⟩ id,fun m hm => ?_⟩,hd⟩).1
    exact absurd hm (not_announces rfl m)

lemma Reachable.stated (h : net.Reachable cfg backends ok) (a : Address) : (net.cores a).Stated := by
  induction h generalizing a with
  | init =>
    refine ⟨fun pr hpr => ?_,fun m hm => absurd hm (init_announces a m)⟩
    rw [preparedRound_of_lock (init_lock a)] at hpr
    simp at hpr
  | @step net i hreach hen _ ih =>
    refine forall_cores_next (P := fun _ c => c.Stated) ?_ (fun a _ => ih a) a
    refine (hreach.moves hen).keeps (fun c c' hc hmove => hmove.relocks.stated hc) ⟨(ih i.node).below,fun m hm => ?_⟩
    exact absurd hm (not_announces rfl m)

lemma keepsUp_next (h : net.Reachable cfg backends ok) (hen : net.Enabled cfg i) (a : Address)
    (hok : i.node=a → net.Trusted i) : (net.cores a).KeepsUp ((net.next i).cores a) := by
  have hrefl (c : Core) : c.KeepsUp c := .inr ⟨rfl,.refl _⟩
  refine forall_cores_next (P := fun a c => (i.node=a → net.Trusted i) → (net.cores a).KeepsUp c)
    (fun hok => ?_) (fun a _ _ => hrefl _) a hok
  have hstart : ((net.cores i.node).receive i.event).Stated :=
    ⟨(h.stated i.node).below,fun m hm => absurd hm (not_announces rfl m)⟩
  have hkept := (h.moves hen).keeps
    (I := fun c => c.Stated ∧ ((net.cores i.node).receive i.event).KeepsUp c)
    (fun c c' hc hmove => ⟨hmove.relocks.stated hc.1,hmove.relocks.keepsUp hc.1 hc.2 (hok rfl)⟩)
  exact (hkept ⟨hstart,hrefl _⟩).2

lemma keepsUp_run (h : net.Reachable cfg backends fun _ _ => True) {a : Address}
    (hrun : Relation.ReflTransGen (TrustedStep cfg a) net net') :
    net'.Reachable cfg backends (fun _ _ => True) ∧ (net.cores a).KeepsUp (net'.cores a) := by
  induction hrun with
  | refl => exact ⟨h,.inr ⟨rfl,.refl _⟩⟩
  | tail _ hstep ih =>
    obtain ⟨i,hen,hok,rfl⟩ := hstep
    exact ⟨ih.1.step hen trivial,ih.2.trans (keepsUp_next ih.1 hen a hok)⟩

/-- In every run whose inputs are tended, every ROUND-CHANGE a core sends is coherent. In every run, as
long as the block a core is locked on is not reported bad, the prepared rounds it announces within a
sequence do not decrease. -/
theorem certificates_coherent (cfg : Config) (backends : Address → Backend) :
    (∀ net : Net, net.Reachable cfg backends Tended → ∀ a m, (net.cores a).Announces m →
      Coherent (net.cores a).valSet m) ∧ ∀ net net' : Net, net.Reachable cfg backends (fun _ _ => True) →
      ∀ a, Relation.ReflTransGen (TrustedStep cfg a) net net' →
      ∀ m m', (net.cores a).Announces m → (net'.cores a).Announces m' → m'.sequence=m.sequence →
        NotBelow m'.preparedRound m.preparedRound := by
  refine ⟨fun net h a => (coherent_of_tended h a).2,?_⟩
  intro net net' h a hrun m m' hm hm' hsequence
  obtain ⟨h',hup⟩ := keepsUp_run h hrun
  obtain ⟨hround,hseq⟩ := (h.stated a).sent m hm
  obtain ⟨hround',hseq'⟩ := (h'.stated a).sent m' hm'
  rw [hround,hround']
  refine (hup.resolve_left ?_).2
  omega

end Net

/-! ### PREPAREs that stay

Validators 2 and 4 are locked on `blockA` in round 0 of sequence 2 when the timer of validator 4 fires. -/

namespace LeftOver
open FourValidators

def announcement : Effect → Option RoundChange
  | .broadcast (.roundChange m) => some m
  | _ => none

def announcements (c : Core) : List RoundChange := c.effects.filterMap announcement

lemma announces_of_mem {c : Core} (h : m ∈ announcements c) : c.Announces m := by
  obtain ⟨e,he,hm⟩ := List.mem_filterMap.mp h
  unfold announcement at hm
  split at hm
  · obtain rfl := Option.some.inj hm
    exact he
  · simp at hm

def voted : List Input := inputs block1 round0

/-- The lock is kept, and announced with its certificate. -/
theorem lock_announced : ∃ (net : Net) (m : RoundChange), (net.cores 4).Announces m ∧
    m.preparedRound = some 0 ∧ Coherent (net.cores 4).valSet m := by
  obtain ⟨net,hreach,m,hm,hpr⟩ := Net.exists_reachable_of_run config (fun _ => backend block1)
    Net.Tended Net.Tended (voted++[⟨4,backend block1,.timeout⟩]) (fun _ _ _ h => h)
    (fun net => ∃ m ∈ announcements (net.cores 4), m.preparedRound = some 0) (by decide +kernel)
  exact ⟨net,m,announces_of_mem hm,hpr,
    (Net.certificates_coherent config (fun _ => backend block1)).1 net hreach 4 m (announces_of_mem hm)⟩

/-- If `blockA` is reported bad by then, the ROUND-CHANGE announces nothing but carries the PREPAREs. -/
theorem prepares_left_over : ∃ (net : Net) (m : RoundChange),
    net.Reachable config (fun _ => backend block1) (fun _ _ => True) ∧ (net.cores 4).Announces m ∧
    m.preparedRound=none ∧ m.justification ≠ [] ∧ ¬ Coherent (net.cores 4).valSet m := by
  obtain ⟨net,hreach,m,hm,hpr,hj⟩ := Net.exists_reachable_of_run config (fun _ => backend block1)
    (fun _ _ => True) (fun _ _ => True)
    (voted++[⟨4,{ backend block1 with hasBadProposal := fun _ => true },.timeout⟩]) (fun _ _ _ h => h)
    (fun net => ∃ m ∈ announcements (net.cores 4), m.preparedRound=none ∧ m.justification.length≠0)
    (by decide +kernel)
  have hne : m.justification ≠ [] := by
    intro hnil
    simp [hnil] at hj
  refine ⟨net,m,hreach,announces_of_mem hm,hpr,hne,?_⟩
  rintro (⟨_,_,hnil⟩ | ⟨pr,block,hsome,_⟩)
  · exact hne hnil
  · simp [hpr] at hsome

end LeftOver

/-- In every run a core is not locked above its round and announces nothing but its lock, the PREPAREs it counts are
those of validators for the proposal of its view, and its backlog is that of validators, each under its address. -/
theorem Net.cores_in_order {cfg : Config} {backends : Address → Backend} {ok : Net → Input → Prop} {net : Net}
    (h : net.Reachable cfg backends ok) (a : Address) : (net.cores a).Stated ∧
      Core.Polled (net.cores a).valSet.members (net.cores a).voter ∧ (net.cores a).Filed :=
  ⟨h.stated a,(h.disciplined a).1,h.filed a⟩

theorem LeftOver.voted_in_order : ∃ net : Net, (net.cores 4).current.preparedRound = some 0 ∧ (net.cores 4).Stated ∧
    Core.Polled (net.cores 4).valSet.members (net.cores 4).voter ∧ (net.cores 4).Filed := by
  obtain ⟨net,hreach,hpr⟩ := Net.exists_reachable_of_run FourValidators.config
    (fun _ => FourValidators.backend FourValidators.block1) (fun _ _ => True) (fun _ _ => True) voted (fun _ _ _ h => h)
    (fun net => (net.cores 4).current.preparedRound = some 0) (by decide +kernel)
  exact ⟨net,hpr,Net.cores_in_order hreach 4⟩

end StableNet.Wbft
