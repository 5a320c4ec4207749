import StableNet.Wbft.Backlog

/-! The evidence a proposer collects. A ROUND-CHANGE is kept only until its sender sends another one for the same
round. -/
namespace StableNet.Wbft
open Chain RoundChangeSet
variable {m : RoundChange} {pr : ℕ}

namespace RoundChangeSet

def stored (rcs : RoundChangeSet) (round : ℕ) : MsgSet RoundChange := (rcs.roundChanges.lookup round).getD ∅

def prepares (rcs : RoundChangeSet) (round : ℕ) : List Prepare := (rcs.prepareMessages.lookup round).getD []

section Lookup

variable {rcs : RoundChangeSet} {k : ℕ}

lemma getD_lookup_insertNew {α : Type} (ms : RoundMap α) (r : ℕ) (d : α) :
    ((if (ms.lookup r).isSome then ms else ms.insert r d).lookup k).getD d = (ms.lookup k).getD d := by
  split
  · rfl
  · rename_i hnone
    by_cases hk : k=r
    · subst hk
      simp [Option.not_isSome_iff_eq_none.mp hnone]
    · simp [hk]

@[simp] lemma stored_newRound (r : ℤ) : (rcs.newRound r).stored k = rcs.stored k := getD_lookup_insertNew ..

@[simp] lemma prepares_newRound (r : ℤ) : (rcs.newRound r).prepares k = rcs.prepares k := getD_lookup_insertNew ..

lemma lookup_foldl_erase {α : Type} (dead : List ℕ) (ms : RoundMap α) :
    (dead.foldl (fun m k => m.erase k) ms).lookup k = if k ∈ dead then none else ms.lookup k := by
  induction dead generalizing ms with
  | nil => simp
  | cons d dead ih =>
    rw [List.foldl_cons,ih]
    by_cases hk : k=d
    · subst hk
      simp
    · simp [hk]

theorem clearLowerThan_cases (r : ℤ) (k : ℕ) :
    (rcs.clearLowerThan r).stored k=∅ ∧ (rcs.clearLowerThan r).highestPreparedRound.lookup k=none ∨
    (rcs.clearLowerThan r).stored k = rcs.stored k ∧ (rcs.clearLowerThan r).prepares k = rcs.prepares k ∧
      (rcs.clearLowerThan r).highestPreparedRound.lookup k = rcs.highestPreparedRound.lookup k ∧
      (rcs.clearLowerThan r).highestPreparedBlock.lookup k = rcs.highestPreparedBlock.lookup k := by
  unfold clearLowerThan stored prepares
  simp only [lookup_foldl_erase]
  split
  · exact .inl ⟨rfl,rfl⟩
  · exact .inr ⟨rfl,rfl,rfl,rfl⟩

lemma stored_file {round : ℕ} : (rcs.file round m).stored k =
    if k=round then (rcs.stored round).add m.source m else rcs.stored k := by
  unfold file stored
  by_cases hk : k=round
  · subst hk
    simp
  · simp [hk]

lemma add_cases (r : ℕ) (m : RoundChange) (prepared : Option (ℕ × Block)) (ps : List Prepare) (q : ℕ) :
    rcs.add r m prepared ps q = rcs.file (uint64 r) m ∨
    ∃ pr pb, prepared = some (pr,pb) ∧ hasMatchingRoundChangeAndPrepares m ps q=none ∧
      rcs.add r m prepared ps q = (rcs.file (uint64 r) m).raise (uint64 r) pr pb ps := by
  unfold add
  dsimp only
  split
  · exact .inl rfl
  · split
    · rename_i pr pb hraise
      exact .inr ⟨pr,pb,rfl,hraise.2,rfl⟩
    · exact .inl rfl

end Lookup

end RoundChangeSet

/-- What matches the announced prepared state is a quorum of PREPAREs for it. -/
theorem quorumOf_of_matching {ps : List Prepare} {q : ℕ}
    (h : hasMatchingRoundChangeAndPrepares m ps q=none) (hpr : m.preparedRound = some pr) :
    QuorumOf (·.source) q (fun p => p.round=pr ∧ p.digest=m.preparedDigest) ps := by
  unfold hasMatchingRoundChangeAndPrepares at h
  dsimp only at h
  split at h
  · simp at h
  · rename_i hlen
    refine ⟨deduplicatePrepares ps,deduplicatePrepares_subset _,nodup_deduplicateFrom,by omega,?_⟩
    intro p hp
    have hmatch := List.findSome?_eq_none_iff.mp h p hp
    unfold checkMatchingPrepare at hmatch
    simp only [hpr] at hmatch
    split at hmatch
    · simp at hmatch
    · split at hmatch
      · simp at hmatch
      · simp_all

namespace RoundChangeSet

/-- What is remembered for a round: a stored ROUND-CHANGE announces it, and a quorum of PREPAREs
proves it. -/
structure Evidence (rcs : RoundChangeSet) (q k pr : ℕ) (block : Block) : Prop where
  highest : rcs.highestPreparedBlock.lookup k = some block
  announced : ∃ m ∈ (rcs.stored k).values, m.preparedRound = some pr ∧ m.preparedDigest=block.hash
  proved : QuorumOf (·.source) q (fun p => p.round=pr ∧ p.digest=block.hash) (rcs.prepares k)

/-- Whatever is remembered is backed by evidence. -/
def Backed (rcs : RoundChangeSet) (q : ℕ) : Prop :=
  ∀ k pr, rcs.highestPreparedRound.lookup k = some pr → ∃ block, rcs.Evidence q k pr block

/-- A ROUND-CHANGE does not take back the prepared state remembered for its round: if it replaces one
of its source that announces the remembered round, it announces the same. -/
def Upholds (rcs : RoundChangeSet) (m : RoundChange) : Prop :=
  ∀ old ∈ (rcs.stored (uint64 m.round)).lookup m.source,
    ∀ pr ∈ rcs.highestPreparedRound.lookup (uint64 m.round), old.preparedRound = some pr →
    m.preparedRound = some pr ∧ m.preparedDigest = old.preparedDigest

instance (rcs : RoundChangeSet) (m : RoundChange) : Decidable (rcs.Upholds m) :=
  inferInstanceAs (Decidable (∀ old ∈ _, _))

section Backed

variable {rcs : RoundChangeSet} {q : ℕ}

lemma backed_newRoundChangeSet (valSet : ValidatorSet) : (newRoundChangeSet valSet).Backed q := by
  intro k pr h
  simp [newRoundChangeSet] at h

lemma Backed.newRound (h : rcs.Backed q) (r : ℤ) : (rcs.newRound r).Backed q := by
  intro k pr hpr
  obtain ⟨block,hblock,hannounced,hproved⟩ := h k pr hpr
  exact ⟨block,hblock,by rwa [stored_newRound],by rwa [prepares_newRound]⟩

lemma Backed.clearLowerThan (h : rcs.Backed q) (r : ℤ) : (rcs.clearLowerThan r).Backed q := by
  intro k pr hpr
  rcases rcs.clearLowerThan_cases r k with ⟨_,hnone⟩ | ⟨hstored,hprepares,hround,hblock⟩
  · simp [hnone] at hpr
  · obtain ⟨block,hb,hannounced,hproved⟩ := h k pr (hround ▸ hpr)
    exact ⟨block,hblock.trans hb,by rwa [hstored],by rwa [hprepares]⟩

lemma mem_values_add {ms : MsgSet RoundChange} {a : Address} {x : RoundChange}
    (hx : x ∈ ms.values) : x ∈ (ms.add a m).values ∨ ms.lookup a = some x := by
  obtain ⟨en,hen,rfl⟩ := List.mem_map.mp hx
  by_cases ha : en.1=a
  · right
    rw [← ha]
    exact AList.mem_lookup_iff.mpr hen
  · left
    have hkept : (ms.add a m).lookup en.1 = some en.2 := by
      rw [MsgSet.add,AList.lookup_insert_ne ha]
      exact AList.mem_lookup_iff.mpr hen
    exact List.mem_map.mpr ⟨en,AList.mem_lookup_iff.mp hkept,rfl⟩

lemma mem_values_add_self (ms : MsgSet RoundChange) (a : Address) (m : RoundChange) : m ∈ (ms.add a m).values := by
  rw [MsgSet.add,MsgSet.values,AList.entries_insert]
  exact List.mem_cons_self

theorem Backed.file (h : rcs.Backed q) (hup : rcs.Upholds m) : (rcs.file (uint64 m.round) m).Backed q := by
  intro k pr hpr
  obtain ⟨block,hblock,⟨x,hx,hxr,hxd⟩,hproved⟩ := h k pr hpr
  refine ⟨block,hblock,?_,hproved⟩
  rw [stored_file]
  split
  · rename_i hk
    subst hk
    rcases mem_values_add (a := m.source) (m := m) hx with hx | hold
    · exact ⟨x,hx,hxr,hxd⟩
    · obtain ⟨hmr,hmd⟩ := hup x hold pr hpr hxr
      exact ⟨m,mem_values_add_self _ _ _,hmr,hmd.trans hxd⟩
  · exact ⟨x,hx,hxr,hxd⟩

theorem Backed.raise (h : rcs.Backed q) {pb : Block} {ps : List Prepare}
    (hup : rcs.Upholds m) (hpr : m.preparedRound = some pr) (hpb : pb.hash=m.preparedDigest)
    (hmatch : hasMatchingRoundChangeAndPrepares m ps q=none) :
    ((rcs.file (uint64 m.round) m).raise (uint64 m.round) pr pb ps).Backed q := by
  intro k pr' hpr'
  by_cases hk : k = uint64 m.round
  · subst hk
    obtain rfl : pr=pr' := by simpa [RoundChangeSet.raise] using hpr'
    refine ⟨pb,by simp [RoundChangeSet.raise],⟨m,?_,hpr,hpb.symm⟩,?_⟩
    · change m ∈ ((rcs.file (uint64 m.round) m).stored (uint64 m.round)).values
      rw [stored_file,if_pos rfl]
      exact mem_values_add_self _ _ _
    · simpa [prepares,RoundChangeSet.raise,hpb] using quorumOf_of_matching hmatch hpr
  · have hold : (rcs.file (uint64 m.round) m).highestPreparedRound.lookup k = some pr' := by
      simpa [RoundChangeSet.raise,hk] using hpr'
    obtain ⟨block,hblock,hannounced,hproved⟩ := h.file hup k pr' hold
    refine ⟨block,by simpa [RoundChangeSet.raise,hk] using hblock,hannounced,?_⟩
    simpa [prepares,RoundChangeSet.raise,hk] using hproved

end Backed

end RoundChangeSet

lemma ValidatorSet.quorumSize_eq_of_validators {v w : ValidatorSet} (h : v.validators=w.validators) :
    v.quorumSize=w.quorumSize := by
  unfold quorumSize size
  rw [h]

namespace Core

/-- What a move does to the stored ROUND-CHANGEs: they are kept, one more is filed, or a new round or
sequence clears them. -/
inductive Recounts (e : Event) (c₀ c c' : Core) : Prop
  | keep (hset : c'.roundChangeSet=c.roundChangeSet) (hround : c'.current.round=c.current.round)
      (hval : c'.valSet.validators=c.valSet.validators)
  | file (m : RoundChange) (hstart : c=c₀) (hbrought : c.brought e = some (.roundChange m))
      (hcheck : c.checkMessage .roundChange m.view=none) (hadd : c.addRoundChange m = some c')
  | changeRound (r : ℤ) (hlt : (c.current.round : ℤ)<r) (hmoves : e.movesRound=true)
      (hnext : r = c.current.round+1 ∨ r = c.roundChangeSet.getMinRoundChange c.current.round)
      (hround : c'.current.round=r.toNat) (hval : c'.valSet.validators=c.valSet.validators)
      (hset : uint64 r=0 ∧ (∃ v, c'.roundChangeSet = (RoundChangeSet.newRoundChangeSet v).newRound r) ∨
        c'.roundChangeSet = (c.roundChangeSet.clearLowerThan r).newRound r)
  | changeSequence (v : ValidatorSet) (hround : c'.current.round=0)
      (hset : c'.roundChangeSet = (RoundChangeSet.newRoundChangeSet v).newRound 0)

section Recounts

variable {b : Backend} {e : Event} {c₀ c c' : Core}

lemma enterRound_roundChangeSet (b : Backend) (c : Core) (r : ℤ) :
    uint64 r=0 ∧ (∃ v, (c.enterRound b r).roundChangeSet = (RoundChangeSet.newRoundChangeSet v).newRound r) ∨
    uint64 r≠0 ∧ (c.enterRound b r).roundChangeSet = (c.roundChangeSet.clearLowerThan r).newRound r := by
  unfold enterRound resetRoundChanges
  dsimp only
  split
  · exact .inl ⟨‹_›,_,rfl⟩
  · refine .inr ⟨‹_›,?_⟩
    simp only [newRoundChangeTimer,setState_roundChangeSet]

lemma setState_round (c : Core) (st : State) : (c.setState st).current.round = c.current.round := by
  rw [setState_current]

lemma Move.recounts (h : Move b e c₀ c c')
    (htime : e.movesRound=true → b.lastProposal.number<c.current.sequence) : Recounts e c₀ c c' := by
  cases h with
  | backlog | wait | prepare | commit | request | store | fireRetry | firePreprepare => exact .keep rfl rfl rfl
  | extraSeal m =>
    obtain ⟨p,q,heq⟩ := addToExtraSeal_eq c m
    rw [heq]
    exact .keep rfl rfl rfl
  | accept | lock | decide =>
    exact .keep (setState_roundChangeSet _ _) (setState_round _ _)
      (congrArg ValidatorSet.validators (setState_valSet _ _))
  | file m _ hstart hbrought _ hcheck hadd => exact .file m hstart hbrought hcheck hadd
  | changeRound r hhead hlt hmoves hnext =>
    have hround : (c.changeRound b r.toNat).roundChangeSet = c.roundChangeSet := by
      unfold Core.changeRound discardBadLock
      split <;> rfl
    refine .changeRound r hlt hmoves hnext (by rw [enterRound_current]; rfl)
      ((enterRound_frame b _ r).validators.trans (discardBadLock_frame b c).validators) ?_
    rw [← hround]
    exact (enterRound_roundChangeSet b _ r).imp_right fun h => h.2
  | changeSequence r hhead hround =>
    cases hmoves : e.movesRound with
    | true =>
      have := htime hmoves
      omega
    | false =>
      obtain rfl := hround hmoves
      obtain ⟨v,hv⟩ := ((enterRound_roundChangeSet b (c.changeSequence b) 0).resolve_right fun h => h.1 rfl).2
      exact .changeSequence v (by rw [enterRound_current]; rfl) hv
  | ask r =>
    unfold broadcastRoundChange
    dsimp only
    split <;> exact .keep rfl rfl rfl
  | propose r =>
    unfold sendPreprepareMsg
    split <;> exact .keep rfl rfl rfl

def broughtRoundChange (c : Core) (e : Event) : Option RoundChange :=
  match c.brought e with
  | some (.roundChange m) => some m
  | _ => none

lemma mem_broughtRoundChange (h : c.brought e = some (.roundChange m)) : m ∈ c.broughtRoundChange e := by
  simp [broughtRoundChange,h]

lemma announced_eq_some {pb : Block} (h : announced m = some (pr,pb)) :
    m.preparedRound = some pr ∧ m.preparedBlock = some pb := by
  unfold announced at h
  split at h
  · rename_i pr' pb' hpr hpb
    obtain ⟨_,h⟩ := Option.ite_none_right_eq_some.mp h
    simp_all
  · simp at h

lemma backed_addRoundChange (h : c.roundChangeSet.Backed c.valSet.quorumSize)
    (hup : c.roundChangeSet.Upholds m) (hadd : c.addRoundChange m = some c') :
    c'.roundChangeSet.Backed c'.valSet.quorumSize := by
  unfold addRoundChange at hadd
  split at hadd
  · exact Option.some.inj hadd ▸ h
  split at hadd
  · rw [← Option.some.inj hadd]
    exact h.file hup
  · rename_i pr pb hannounced
    split at hadd
    · simp at hadd
    · rename_i hpb
      rw [not_or,not_not,not_not] at hpb
      rw [← Option.some.inj hadd]
      dsimp only
      rcases c.roundChangeSet.add_cases m.round m (some (pr,pb)) m.justification c.valSet.quorumSize with
        heq | ⟨pr',pb',hprepared,hmatch,heq⟩
      · rw [heq]
        exact h.file hup
      · obtain ⟨rfl,rfl⟩ : pr=pr' ∧ pb=pb' := by simpa using hprepared
        rw [heq]
        exact h.raise hup (announced_eq_some hannounced).1 hpb.2 hmatch

lemma Recounts.backed (hrec : Recounts e c₀ c c') (h : c.roundChangeSet.Backed c.valSet.quorumSize)
    (hup : ∀ m, c₀.brought e = some (.roundChange m) → c₀.roundChangeSet.Upholds m) :
    c'.roundChangeSet.Backed c'.valSet.quorumSize := by
  cases hrec with
  | keep hset _ hval =>
    rw [hset,ValidatorSet.quorumSize_eq_of_validators hval]
    exact h
  | file m hstart hbrought _ hadd =>
    subst hstart
    exact backed_addRoundChange h (hup m hbrought) hadd
  | changeRound r _ _ _ _ hval hset =>
    rw [ValidatorSet.quorumSize_eq_of_validators hval]
    rcases hset with ⟨_,v,hset⟩ | hset
    · rw [hset]
      exact (backed_newRoundChangeSet v).newRound r
    · rw [hset]
      exact (h.clearLowerThan r).newRound r
  | changeSequence v _ hset =>
    rw [hset]
    exact (backed_newRoundChangeSet v).newRound 0

end Recounts

end Core

namespace Net

variable {cfg : Config} {backends : Address → Backend} {ok : Net → Input → Prop} {net : Net} {i : Input}

/-- What every move does not spoil that keeps, files or clears ROUND-CHANGEs, an input in time does not. -/
theorem Reachable.recounts {I : Core → Prop} (h : net.Reachable cfg backends ok) (hen : net.Enabled cfg i)
    (htime : net.OnTime i) (hI : ∀ c c', I c → Core.Recounts i.event ((net.cores i.node).receive i.event) c c' → I c')
    (hc : I ((net.cores i.node).receive i.event)) : I (net.coreAfter i) := by
  refine ((h.moves hen).keeps (I := fun c => I c ∧ (net.cores i.node).current.sequence ≤ c.current.sequence)
    (fun c c' hc hmove => ⟨?_,?_⟩) ⟨hc,le_rfl⟩).1
  · exact hI c c' hc.1 (hmove.recounts fun hm => (htime hm).trans_le hc.2)
  · exact hc.2.trans (Core.sequence_le_of_view hmove.votes.view)

/-- Rounds are changed in time, and a ROUND-CHANGE takes back nothing that is remembered. -/
def Upholding (net : Net) (i : Input) : Prop :=
  net.OnTime i ∧ ∀ m ∈ ((net.cores i.node).receive i.event).broughtRoundChange i.event,
    (net.cores i.node).roundChangeSet.Upholds m

instance (net : Net) (i : Input) : Decidable (net.Upholding i) := inferInstanceAs (Decidable (_ ∧ _))

lemma backed_of_upholding (h : net.Reachable cfg backends Upholding) (a : Address) :
    (net.cores a).roundChangeSet.Backed (net.cores a).valSet.quorumSize := by
  induction h generalizing a with
  | init =>
    obtain ⟨v,hv⟩ := ((Core.enterRound_roundChangeSet (backends a) _ 0).resolve_right fun h => h.1 rfl).2
    rw [show ((Net.init cfg backends).cores a).roundChangeSet = _ from hv]
    exact (backed_newRoundChangeSet v).newRound 0
  | @step net i hreach hen hok ih =>
    refine forall_cores_next (P := fun _ c => c.roundChangeSet.Backed c.valSet.quorumSize) ?_
      (fun a _ => ih a) a
    refine hreach.recounts (I := fun c => c.roundChangeSet.Backed c.valSet.quorumSize) hen hok.1
      (fun c c' hc hrec => hrec.backed hc fun m hm => hok.2 m ?_) (ih i.node)
    exact Core.mem_broughtRoundChange hm

/-- In every run in which no ROUND-CHANGE takes back what is remembered and rounds are changed in
time, whatever prepared round a core remembers for a round is backed: a ROUND-CHANGE stored for the
round announces it with the digest of the remembered block, and the remembered PREPAREs are a quorum
for both. -/
theorem proposer_evidence (h : net.Reachable cfg backends Upholding) (a : Address) (k pr : ℕ)
    (hpr : (net.cores a).roundChangeSet.highestPreparedRound.lookup k = some pr) :
    ∃ block, (net.cores a).roundChangeSet.highestPreparedBlock.lookup k = some block ∧
      (∃ m ∈ ((net.cores a).roundChangeSet.stored k).values, m.preparedRound = some pr ∧ m.preparedDigest=block.hash) ∧
      QuorumOf (·.source) (net.cores a).valSet.quorumSize (fun p => p.round=pr ∧ p.digest=block.hash)
        ((net.cores a).roundChangeSet.prepares k) := by
  obtain ⟨block,hblock,hannounced,hproved⟩ := backed_of_upholding h a k pr hpr
  exact ⟨block,hblock,hannounced,hproved⟩

end Net

/-! ### A ROUND-CHANGE that is taken back

Validators 1, 2 and 4 are honest. Validators 2 and 4 vote for `blockA` in round 0 of sequence 2, and
validator 3 presents their PREPAREs to validator 1. -/

namespace TakenBack
open FourValidators

def announces : RoundChange :=
  { roundChangeBy 3 (some blockA) with
    preparedBlock := some blockA, justification := [2,4,3].map (prepareBy · 0 blockA) }

def takesBack : RoundChange := { roundChangeBy 3 none with preparedBlock := none, justification := [] }

def voted : List (Address × Event) :=
  (2,.request blockA)::deliver [2,4] [.preprepare (proposalBy 2 0 blockA [] [])]

theorem evidence_announced : ∃ net : Net, (net.cores 1).roundChangeSet.highestPreparedRound.lookup 1 = some 0 ∧
    ∃ block, (net.cores 1).roundChangeSet.highestPreparedBlock.lookup 1 = some block ∧
      ∃ m ∈ ((net.cores 1).roundChangeSet.stored 1).values, m.preparedDigest=block.hash := by
  obtain ⟨net,hreach,hpr⟩ := Net.exists_reachable_of_run config (fun _ => backend block1)
    Net.Upholding Net.Upholding (inputs block1 (voted++deliver [1] [.roundChange announces]))
    (fun _ _ _ h => h) (fun net => (net.cores 1).roundChangeSet.highestPreparedRound.lookup 1 = some 0)
    (by decide +kernel)
  obtain ⟨block,hblock,⟨m,hm,_,hd⟩,_⟩ := Net.proposer_evidence hreach 1 1 0 hpr
  exact ⟨net,hpr,block,hblock,m,hm,hd⟩

/-- Validator 3, the only Byzantine one of four, sends a second ROUND-CHANGE for round 1 without a
prepared block. It replaces the first, and none is left that announces the prepared round 0. -/
theorem evidence_taken_back : ∃ net : Net, net.Reachable config (fun _ => backend block1) (fun _ _ => True) ∧
    (valSet.members \ config.honest).card ≤ (valSet.size-1)/3 ∧
    (net.cores 1).roundChangeSet.highestPreparedRound.lookup 1 = some 0 ∧
    ∀ m ∈ ((net.cores 1).roundChangeSet.stored 1).values, m.preparedRound ≠ some 0 := by
  obtain ⟨net,hreach,hpr,hm⟩ := Net.exists_reachable_of_run config (fun _ => backend block1)
    (fun _ _ => True) (fun _ _ => True)
    (inputs block1 (voted++deliver [1] [.roundChange announces,.roundChange takesBack]))
    (fun _ _ _ h => h)
    (fun net => (net.cores 1).roundChangeSet.highestPreparedRound.lookup 1 = some 0 ∧
      ∀ m ∈ ((net.cores 1).roundChangeSet.stored 1).values, m.preparedRound ≠ some 0) (by decide +kernel)
  exact ⟨net,hreach,by decide,hpr,hm⟩

end TakenBack

end StableNet.Wbft
