import StableNet.Engine.VerifyHeader
import StableNet.Wbft.Agreement

/-! Finality of imported headers: the honest ones among the sealers of a header have voted to commit it in the round
written in it. -/
namespace StableNet.Wbft
open Chain Lib.Locking
variable {backends : Address → Backend} {ok : Net → Input → Prop}

lemma Net.Reachable.mono {cfg : Config} {ok' : Net → Input → Prop}
    {net : Net} (h : net.Reachable cfg backends ok) (himp : ∀ net i, ok net i → ok' net i) :
    net.Reachable cfg backends ok' := by
  induction h with
  | init => exact .init
  | step _ hen hok ih => exact ih.step hen (himp _ _ hok)

namespace Instance

/-- The rounds of the sequence fit `uint32`, as the seals do. -/
def Narrow (I : Instance) (net : Net) (i : Input) : Prop :=
  (net.cores i.node).current.sequence = I.sequence → (net.cores i.node).current.round<2^32

instance (I : Instance) (net : Net) (i : Input) : Decidable (I.Narrow net i) :=
  inferInstanceAs (Decidable (_ → _))

/-- Where seals come from: an honest key seals only what its node signs. -/
structure SealInv (I : Instance) (cfg : Config) (net : Net) : Prop where
  key : ∀ a ∈ cfg.honest, (a,(net.cores a).blsPublicKey) ∈ cfg.nodes
  sealed : ∀ k pre, (k,pre) ∈ net.sealed →
    ∃ a p, (a,k) ∈ cfg.nodes ∧ (a,p) ∈ net.signed ∧ p.sealedPreimage = some pre
  narrow : ∀ a r d sig, (a,.commit I.sequence r d sig) ∈ net.signed → r<2^32

variable {I : Instance} {cfg : Config} {net : Net}

lemma sealInv_init (backends : Address → Backend) : I.SealInv cfg (Net.init cfg backends) where
  key a ha := Net.init_key backends ha
  sealed := by simp [Net.init]
  narrow := by simp [Net.init]

lemma SealInv.next {i : Input} (h : I.SealInv cfg net) (hen : net.Enabled cfg i)
    (hok : I.Narrow net i) : I.SealInv cfg (net.next i) := by
  have hsim := Net.coreAfter_simulates (fun _ => True) hen (fun _ _ => trivial)
    fun _ _ _ _ _ _ _ => trivial
  have hkey := h.key _ hen.1
  rw [← hsim.key] at hkey
  refine ⟨Net.forall_cores_next (P := fun a c => a ∈ cfg.honest → (a,c.blsPublicKey) ∈ cfg.nodes)
    (fun _ => hkey) fun a _ => h.key a,fun k pre hmem => ?_,fun a r d sig hmem => ?_⟩
  · rcases List.mem_append.mp hmem with hmem | hmem
    · obtain ⟨q,hq,heq⟩ := List.mem_map.mp hmem
      cases heq
      have hq : pre ∈ (net.coreAfter i).sealedNow := hq
      rw [hsim.sealed] at hq
      obtain ⟨p,hp,hpre⟩ := List.mem_filterMap.mp hq
      exact ⟨i.node,p,hkey,List.mem_append_left _ (List.mem_map_of_mem hp),hpre⟩
    · obtain ⟨a,p,ha,hp,hpre⟩ := h.sealed k pre hmem
      exact ⟨a,p,ha,List.mem_append_right _ hp,hpre⟩
  · rcases List.mem_append.mp hmem with hmem | hmem
    · obtain ⟨p,hp,heq⟩ := List.mem_map.mp hmem
      cases heq
      obtain ⟨hs,rfl⟩ := hsim.step.view_of_commit hp
      exact hok hs.symm
    · exact h.narrow a r d sig hmem

lemma sealInv_of_reachable (h : net.Reachable cfg backends ok) (hok : ∀ net i, ok net i → I.Narrow net i) :
    I.SealInv cfg net := by
  induction h with
  | init => exact sealInv_init backends
  | step _ hen hi ih => exact ih.next hen (hok _ _ hi)

/-- Honest validators seal with the key they are registered with, no two nodes share a key or an
address, and no two validators an address. -/
structure Keyed (I : Instance) (cfg : Config) : Prop where
  registered : ∀ val ∈ I.valSet.validators, val.address ∈ cfg.honest →
    (val.address,val.blsPublicKey) ∈ cfg.nodes
  keys : ∀ a a' k, (a,k) ∈ cfg.nodes → (a',k) ∈ cfg.nodes → a=a'
  addresses : I.valSet.addressList.Nodup

theorem SealInv.vote_of_sealed (h : I.SealInv cfg net) (hst : Stamped net.signed) (hk : I.Keyed cfg)
    {val : Validator} (hval : val ∈ I.valSet.validators) (hhon : val.address ∈ cfg.honest)
    {header : Header} {e : WBFTExtra} (hd : header.difficulty=wbftDefaultDifficulty)
    (he : header.extractWBFTExtra = some e) (hn : header.number=I.sequence) {r : ℕ}
    (hmem : (val.blsPublicKey,prepareSeal header r .commit) ∈ net.sealed) :
    (val.address,.commit r header.hash) ∈ votesAt I.sequence net.signed := by
  obtain ⟨a,p,hnode,hp,hpre⟩ := h.sealed _ _ hmem
  obtain rfl := hk.keys _ _ _ hnode (hk.registered val hval hhon)
  have hstamp := hst _ _ hp
  cases p with
  | commit s r' d sig =>
    obtain ⟨b,rfl,rfl,hsig⟩ := hstamp
    have heq : prepareSeal header r .commit = prepareSeal b.header (uint32 r') .commit := by
      rw [← hsig]
      exact (Option.some.inj hpre).symm
    obtain ⟨hhash,hr⟩ := Header.hash_eq_of_wbftHash_eq hd he (congrArg SealPreimage.roundHeader heq)
    have hs : b.number=I.sequence := (Header.number_eq_of_hash_eq hhash).symm.trans hn
    rw [hs] at hp
    have hr' := h.narrow _ _ _ _ hp
    rw [hr,uint32_of_lt hr',hhash]
    exact commit_mem_votesAt hp
  | prepare s r' d sig =>
    obtain ⟨b,_,_,hsig⟩ := hstamp
    have htype := congrArg SealPreimage.sealType (Option.some.inj hpre)
    rw [hsig] at htype
    cases htype
  | preprepare | roundChange => cases hpre

end Instance

end StableNet.Wbft

namespace StableNet.Engine
open Chain Wbft Lib.Locking
variable {vals : List Validator}

/-- A node that verifies headers: its configuration, primitives, chain and clock. -/
structure Verifier where
  config : Config
  crypto : Crypto
  chain : ChainReader
  now : ℕ

namespace Verifier

variable (v : Verifier)

def Accepts (header : Header) : Prop :=
  backendVerifyHeader v.config v.crypto v.chain v.now header=none

instance (header : Header) : Decidable (v.Accepts header) := inferInstanceAs (Decidable (_=_))

/-- The epoch block that a header follows. -/
def epochNumber (header : Header) : Option ℕ :=
  (v.config.isEpochBlockNumber (predNumber header.number)).map Prod.snd

/-- The last epoch block below a header, on the header's own branch. -/
def branchEpochHeader (header : Header) : Option Header := do
  let epochNum ← v.epochNumber header
  ancestorEpochHeader v.chain epochNum [] header.parentHash (predNumber header.number)

/-- The validators written in the last epoch block on the header's own branch. -/
def branchValidators (header : Header) : Option (List Validator) := do
  let (_,info) ← extractEpochInfo (← v.branchEpochHeader header)
  return info.getValidators.zipWith Validator.mk info.blsPublicKeys

/-- If the canonical chain has a block at the epoch number, it is the one on the header's branch. -/
def CanonicalOnBranch (header : Header) : Prop :=
  ∀ n ∈ v.epochNumber header, ∀ e ∈ v.chain.getHeaderByNumber n, v.branchEpochHeader header = some e

/-- A verifying aggregate means that every honest key listed has sealed the message. -/
def Trusts (cfg : Wbft.Config) (net : Net) : Prop :=
  ∀ keys pre sig, v.crypto.verifyAggregate keys pre sig=true →
    ∀ k ∈ keys, k ∈ cfg.honestKeys → (k,pre) ∈ net.sealed

variable {v} {header : Header}

theorem getValidators_of_branch {valSet : ValidatorSet} (hn : header.number≠0) (hc : v.CanonicalOnBranch header)
    (hb : v.branchValidators header = some vals)
    (h : getValidators v.config v.chain header.number header.parentHash [] = some valSet) : valSet.validators=vals := by
  simp only [branchValidators,Option.bind_eq_bind,Option.bind_eq_some_iff,Option.pure_def,Option.some.injEq] at hb
  obtain ⟨e,hbranch,info,hinfo,rfl⟩ := hb
  obtain ⟨n,hnum,he⟩ := Option.bind_eq_some_iff.mp hbranch
  obtain ⟨x,hx,rfl⟩ := Option.map_eq_some_iff.mp hnum
  rw [getValidators,if_neg hn,getEpochInfo] at h
  simp only [hx,Option.bind_eq_bind,Option.bind_some] at h
  cases hcan : v.chain.getHeaderByNumber x.2 with
  | none =>
    simp only [hcan,he,Option.bind_some,hinfo,Option.map_some,Option.some.injEq] at h
    rw [← h]
    rfl
  | some e' =>
    have heq := hc x.2 hnum e' hcan
    rw [hbranch,Option.some.injEq] at heq
    simp only [hcan,← heq,hinfo,Option.map_some,Option.some.injEq] at h
    rw [← h]
    rfl

end Verifier

lemma nodup_of_mapM_getByIndex {w : ValidatorSet} (hw : w.addressList.Nodup) {idxs : List ℕ}
    (h : idxs.mapM w.getByIndex = some vals) (hi : idxs.Nodup) :
    (vals.map Validator.address).Nodup ∧ vals.length = idxs.length := by
  induction idxs generalizing vals with
  | nil =>
    obtain rfl : vals = [] := by simpa [eq_comm] using h
    simp
  | cons i idxs ih =>
    simp only [List.mapM_cons,Option.bind_eq_bind,Option.bind_eq_some_iff,Option.pure_def,Option.some.injEq] at h
    obtain ⟨val,hval,vals',hvals,rfl⟩ := h
    obtain ⟨hnot,hi⟩ := List.nodup_cons.mp hi
    obtain ⟨hnodup,hlen⟩ := ih hvals hi
    refine ⟨List.nodup_cons.mpr ⟨fun hmem => hnot ?_,hnodup⟩,by simp [hlen]⟩
    obtain ⟨val',hval',heq⟩ := List.mem_map.mp hmem
    obtain ⟨j,hj,hget⟩ := mem_of_mapM_eq_some hvals val' hval'
    have hij : i=j := by
      obtain ⟨hi,hvi⟩ := List.getElem?_eq_some_iff.mp hval
      obtain ⟨hj,hvj⟩ := List.getElem?_eq_some_iff.mp hget
      have hi' : i<w.addressList.length := by simpa [ValidatorSet.addressList] using hi
      have hj' : j<w.addressList.length := by simpa [ValidatorSet.addressList] using hj
      have haddr : w.addressList[i] = w.addressList[j] := by
        simp [ValidatorSet.addressList,hvi,hvj,heq]
      exact hw.getElem_inj_iff.mp haddr
    exact hij ▸ hj

/-- The bitset of the committed seal is short enough for its indices to fit `uint32`. -/
def ShortSeal (header : Header) : Prop :=
  ∀ e ∈ header.extractWBFTExtra, ∀ x ∈ e.committedSeal, x.sealers.length ≤ 2^29

/-- The honest ones among the sealers of an accepted header have voted to commit it. -/
theorem Verifier.Accepts.supports {v : Verifier} {header : Header} {I : Instance} {cfg : Wbft.Config}
    {net : Net} (h : v.Accepts header) (hinv : I.SealInv cfg net) (hst : Stamped net.signed)
    (hk : I.Keyed cfg) (hhon : I.honest=cfg.honest) (ht : v.Trusts cfg net)
    (hn : header.number=I.sequence) (hpos : I.sequence≠0)
    (hb : v.branchValidators header = some I.valSet.validators) (hc : v.CanonicalOnBranch header)
    (hshort : ShortSeal header) : ∃ r, Supports I.quorums (votesAt I.sequence net.signed) (.commit r header.hash) := by
  have hn0 : header.number≠0 := hn ▸ hpos
  obtain ⟨w,e,x,hw,hd,he,hx,hagg⟩ := committed_of_verifyHeader hn0 h
  have hvals := getValidators_of_branch hn0 hc hb hw
  unfold verifyAggregatedSeal at hagg
  dsimp only at hagg
  split at hagg
  · simp at hagg
  rename_i hlen
  split at hagg
  · simp at hagg
  rename_i vals hmap
  have hq : w.quorumSize=I.valSet.quorumSize := by
    unfold ValidatorSet.quorumSize ValidatorSet.size
    rw [hvals]
  have haddr : w.addressList.Nodup := by
    unfold ValidatorSet.addressList
    rw [hvals]
    exact hk.addresses
  obtain ⟨hnodup,hlen'⟩ := nodup_of_mapM_getByIndex haddr hmap
    (SealerSet.getSealers_nodup (hshort e he x hx))
  have hmem : ∀ val ∈ vals, val ∈ I.valSet.validators := fun val hval => by
    obtain ⟨i,_,hi⟩ := mem_of_mapM_eq_some hmap val hval
    exact hvals ▸ List.mem_of_getElem? hi
  refine ⟨e.round,(vals.map Validator.address).toFinset,⟨fun a ha => ?_,?_⟩,fun a ha hh => ?_⟩
  · obtain ⟨val,hval,rfl⟩ := List.mem_map.mp (List.mem_toFinset.mp ha)
    exact List.mem_toFinset.mpr (List.mem_map_of_mem (hmem val hval))
  · rw [List.toFinset_card_of_nodup hnodup,List.length_map,hlen',← hq]
    exact Nat.le_of_not_lt hlen
  · obtain ⟨val,hval,rfl⟩ := List.mem_map.mp (List.mem_toFinset.mp ha)
    have hh' : val.address ∈ cfg.honest := hhon ▸ hh
    have hnode := hk.registered val (hmem val hval) hh'
    refine hinv.vote_of_sealed hst hk (hmem val hval) hh' hd he hn (ht _ _ _ hagg _ ?_ ?_)
    · exact List.mem_map_of_mem hval
    · exact List.mem_toFinset.mpr (List.mem_map_of_mem (f := Prod.snd) hnode)

/-- Imported finality: in every run of proper inputs with rounds that fit `uint32`, two headers of the
sequence that any two nodes accept are the same block, provided the bitsets are short and the
canonical epoch blocks of the nodes lie on the branches of the headers. -/
theorem accepted_hash_unique (I : Instance) (hpos : I.sequence≠0) (cfg : Wbft.Config)
    (backends : Address → Backend) (hhon : I.honest=cfg.honest) (hk : I.Keyed cfg)
    (hb : ∀ a ∈ I.honest, I.Assumed (backends a)) {net : Net} (hreach : net.Reachable cfg backends
      fun net i => I.Assumed i.backend ∧ I.Proper net i ∧ I.Narrow net i)
    {v v' : Verifier} (ht : v.Trusts cfg net) (ht' : v'.Trusts cfg net) {h h' : Header}
    (hn : h.number=I.sequence) (hn' : h'.number=I.sequence) (hg : ¬ I.bad h.hash) (hg' : ¬ I.bad h'.hash)
    (hbr : v.branchValidators h = some I.valSet.validators) (hbr' : v'.branchValidators h' = some I.valSet.validators)
    (hcan : v.CanonicalOnBranch h) (hcan' : v'.CanonicalOnBranch h')
    (hs : ShortSeal h) (hs' : ShortSeal h') (hacc : v.Accepts h) (hacc' : v'.Accepts h') : h.hash=h'.hash := by
  have hnet := Instance.netInv_of_reachable hhon hb (hreach.mono fun _ _ hi => ⟨hi.1,hi.2.1⟩)
  have hseal : I.SealInv cfg net := Instance.sealInv_of_reachable hreach fun _ _ hi => hi.2.2
  obtain ⟨r,hr⟩ := hacc.supports hseal hnet.stamped hk hhon ht hn hpos hbr hcan hs
  obtain ⟨r',hr'⟩ := hacc'.supports hseal hnet.stamped hk hhon ht' hn' hpos hbr' hcan' hs'
  exact Lib.Locking.Lawful.agreement hnet.lawful hr hg hr' hg'

namespace FourValidators
open Wbft.FourValidators

/-- In sequence 1 the first three validators decide on `block1`. -/
def sequence1 : List (Address × Event) :=
  (1,.request block1)::deliver [1,2] [.preprepare (proposalBy 1 0 block1 [] [])] ++
  deliver [1,2] ([1,2,3].map fun a => .prepare (prepareBy a 0 block1)) ++
  deliver [1,2] ([1,2,3].map fun a => .commit (commitBy a 0 block1))

def sealed (b : Block) (round : ℕ) (sealers : SealerSet) : Header :=
  { b.header with
    extra := .wbft { extra (some prevSeal) none with
      round, preparedSeal := some ⟨sealers,[1]⟩, committedSeal := some ⟨sealers,[1]⟩ } }

def engineConfig : Config := ⟨1,.roundRobin,10,0,[]⟩

def chain : ChainReader where
  config := ⟨some 0,none,none,some ⟨[1,2,3,4],[11,12,13,14],true⟩⟩
  getHeader hash number :=
    ([genesis,block1].find? fun b => b.hash=hash ∧ b.number=number).map Block.header
  getHeaderByNumber number := ([genesis,block1].find? fun b => b.number=number).map Block.header
  stateAt _ := some ⟨fun _ => false,some 1⟩

/-- A node on this chain with an ideal BLS library: an aggregate verifies if every honest key listed
has sealed the message in the network. -/
def verifier (net : Net) : Verifier where
  config := engineConfig
  crypto :=
    { verifyAggregate := fun keys pre _ =>
        decide (∀ k ∈ keys, k ∈ config.honestKeys → (k,pre) ∈ net.sealed)
      checkSig := fun _ _ _ => true
      keccak := fun _ => 0 }
  chain
  now := 10

lemma trusts (net : Net) : (verifier net).Trusts config net := fun _ _ _ h => of_decide_eq_true h

lemma keyed : inst.Keyed config where
  registered := by decide
  keys _ _ _ h h' := congrArg Prod.fst
    (List.inj_on_of_nodup_map (by decide : (config.nodes.map Prod.snd).Nodup) h h' rfl)
  addresses := by decide

lemma canonicalOnBranch (net : Net) (round : ℕ) (sealers : SealerSet) :
    (verifier net).CanonicalOnBranch (sealed blockA round sealers) := by
  have hepoch : engineConfig.isEpochBlockNumber (predNumber 2) = some (false,0) := by decide
  have hbranch : ancestorEpochHeader chain 0 [] block1.hash (predNumber 2) = some genesis.header := by
    decide
  intro n hn e he
  obtain rfl := Option.some.inj ((congrArg (Option.map Prod.snd) hepoch).symm.trans hn)
  obtain rfl : genesis.header=e := Option.some.inj he
  rw [Verifier.branchEpochHeader,Option.mem_def.mp hn,Option.bind_eq_bind,Option.bind_some]
  exact hbranch

lemma shortSeal (b : Block) (round : ℕ) (byte : BitVec 8) : ShortSeal (sealed b round [byte]) := by
  intro e he x hx
  obtain rfl := Option.some.inj he
  obtain rfl := Option.some.inj hx
  simp

/-- A proper run whose two rounds both seal `blockA`: two headers of one block are accepted. -/
theorem sealed_hash_unique : ∃ net : Net, (verifier net).Accepts (sealed blockA 0 [0b1110]) ∧
    (verifier net).Accepts (sealed blockA 1 [0b1101]) ∧
    (sealed blockA 0 [0b1110]).hash = (sealed blockA 1 [0b1101]).hash := by
  obtain ⟨net,hreach,hA,hA'⟩ := Net.exists_reachable_of_run config (fun _ => backend genesis)
    (fun net i => inst.Proper net i ∧ inst.Narrow net i)
    (fun net i => inst.Assumed i.backend ∧ inst.Proper net i ∧ inst.Narrow net i)
    (inputs genesis sequence1++inputs block1 ([(1,.finalCommitted),(2,.finalCommitted),
      (4,.finalCommitted)]++round0++round1 blockA
        [roundChangeBy 4 (some blockA),roundChangeBy 1 none,roundChangeBy 3 none]
        ([2,4,3].map (prepareBy · 0 blockA))))
    (fun i hi _ h => ⟨(List.mem_append.mp hi).elim assumed_inputs assumed_inputs,h⟩)
    (fun net => (verifier net).Accepts (sealed blockA 0 [0b1110]) ∧
      (verifier net).Accepts (sealed blockA 1 [0b1101])) (by decide +kernel)
  exact ⟨net,hA,hA',accepted_hash_unique inst (by decide) config (fun _ => backend genesis) rfl keyed
    (fun _ _ => assumed genesis) hreach (trusts net) (trusts net) rfl rfl id id rfl rfl
    (canonicalOnBranch net 0 _) (canonicalOnBranch net 1 _) (shortSeal _ _ _) (shortSeal _ _ _) hA hA'⟩

/-- After the run in which validator 4 catches up too late, headers of both blocks are accepted: they
have the same number and parent, and different hashes. -/
theorem accepts_two_blocks : ∃ net : Net,
    net.Reachable config (fun _ => backend genesis) (fun _ i => inst.Assumed i.backend) ∧
    (∀ head, inst.Assumed (backend head)) ∧ inst.Keyed config ∧ (verifier net).Trusts config net ∧
    (verifier net).branchValidators (sealed blockA 0 [0b1110]) = some inst.valSet.validators ∧
    (verifier net).branchValidators (sealed blockB 1 [0b1101]) = some inst.valSet.validators ∧
    (verifier net).Accepts (sealed blockA 0 [0b1110]) ∧ (verifier net).Accepts (sealed blockB 1 [0b1101]) ∧
    (sealed blockA 0 [0b1110]).number = inst.sequence ∧ (sealed blockB 1 [0b1101]).number = inst.sequence ∧
    (sealed blockA 0 [0b1110]).parentHash = (sealed blockB 1 [0b1101]).parentHash ∧
    (sealed blockA 0 [0b1110]).hash ≠ (sealed blockB 1 [0b1101]).hash := by
  obtain ⟨net,hreach,hA,hB⟩ := Net.exists_reachable_of_run config (fun _ => backend genesis)
    (fun _ _ => True) (fun _ i => inst.Assumed i.backend)
    (inputs genesis sequence1++inputs block1 ([(1,.finalCommitted),(2,.finalCommitted),
      (4,.timeout)]++round0++round1 blockB
        [roundChangeBy 4 none,roundChangeBy 1 none,roundChangeBy 3 none] []))
    (fun i hi _ _ => (List.mem_append.mp hi).elim assumed_inputs assumed_inputs)
    (fun net => (verifier net).Accepts (sealed blockA 0 [0b1110]) ∧
      (verifier net).Accepts (sealed blockB 1 [0b1101])) (by decide +kernel)
  exact ⟨net,hreach,assumed,keyed,trusts net,rfl,rfl,hA,hB,rfl,rfl,rfl,by decide⟩

end FourValidators

end StableNet.Engine
