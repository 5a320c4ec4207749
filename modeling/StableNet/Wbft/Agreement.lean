import StableNet.Wbft.Ballot
import StableNet.Wbft.Provenance

/-! Agreement of the network in one sequence, as long as nodes change rounds only on the head below it and resend
ROUND-CHANGEs only for rounds they have entered. -/
namespace StableNet.Wbft
open Chain Lib.Locking Net

def Event.retryRound : Event → Option ℕ
  | .retryTimeout r => some r
  | _ => none

def Event.preprepare : Event → Option Preprepare
  | .message (.preprepare m) => some m
  | _ => none

namespace Instance

/-- What is assumed of a backend: the validators are those of the instance in its sequence and in
the one before, and it knows no other blocks of the sequence as bad than the instance does. -/
structure Assumed (I : Instance) (b : Backend) : Prop where
  validators : b.lastProposal.number+1 = I.sequence ∨ b.lastProposal.number+2 = I.sequence →
    (b.validators b.lastProposal).validators = I.valSet.validators
  bad : ∀ p : Block, p.number=I.sequence → b.hasBadProposal p.hash=true → I.bad p.hash

/-- An input that finds its node in the sequence, or on the head below it, is in order: the round
fits `uint64`, rounds change only on the head below the node's sequence, and only entered rounds are
asked for again. -/
structure InOrder (I : Instance) (net : Net) (i : Input) : Prop where
  round : (net.cores i.node).current.round<2^64
  head : i.event.movesRound=true →
    i.backend.lastProposal.number+1 = (net.cores i.node).current.sequence
  retry : ∀ r ∈ i.event.retryRound, r ≤ (net.cores i.node).current.round

instance (I : Instance) (net : Net) (i : Input) : Decidable (I.InOrder net i) :=
  decidable_of_iff (_ ∧ (_ → _) ∧ ∀ r ∈ i.event.retryRound, _)
    ⟨fun h => ⟨h.1,h.2.1,h.2.2⟩,fun h => ⟨h.1,h.2,h.3⟩⟩

/-- The condition on an input: it is in order if it concerns the sequence, and a proposal for the
sequence brings only PREPAREs of that sequence, unless the validators the node had before are those
of the instance as well. -/
structure Proper (I : Instance) (net : Net) (i : Input) : Prop where
  inOrder : (net.cores i.node).current.sequence = I.sequence ∨
    i.backend.lastProposal.number+1 = I.sequence → I.InOrder net i
  nested : ∀ m ∈ i.event.preprepare, m.sequence=I.sequence →
    (∀ p ∈ m.justificationPrepares, p.sequence=I.sequence) ∨
    ∀ w ∈ (net.cores i.node).priorState.validatorSet, w.validators=I.valSet.validators

instance (I : Instance) (net : Net) (i : Input) : Decidable (I.Proper net i) :=
  decidable_of_iff ((_ → I.InOrder net i) ∧ ∀ m ∈ i.event.preprepare, _ → _)
    ⟨fun h => ⟨h.1,h.2⟩,fun h => ⟨h.1,h.2⟩⟩

variable {I : Instance} {cfg : Config} {net : Net} {i : Input} {H : List (Address × SigningPayload)}

theorem Backed.of_verified {c : Core} {m m₀ : CommonPayload} {data : SigningPayload} {msg : Message}
    (hhon : I.honest=cfg.honest) (hauth : net.Authentic cfg msg) (h : c.Verified m₀ m data)
    (hval : (c.signatureValidators m.view).validators = I.valSet.validators)
    (hmem : m₀.signature ∈ msg.signatures) : I.Backed net.signed m.source data := by
  refine ⟨ValidatorSet.members_eq_of_validators hval ▸ h.member,fun hh => ?_⟩
  have := hauth.1 _ hmem
  rw [h.signature] at this
  exact this (hhon ▸ hh)

/-- A core in the sequence, or in the one before, has the validators of the instance. -/
def Seated (I : Instance) (c : Core) : Prop :=
  c.current.sequence=I.sequence ∨ c.current.sequence+1 = I.sequence →
    c.valSet.validators=I.valSet.validators

lemma Seated.signatureValidators {c : Core} {view : View} (h : I.Seated c)
    (hwindow : c.current.sequence ≤ I.sequence ∧ I.sequence ≤ c.current.sequence+1)
    (hview : view.sequence=I.sequence ∨ ∀ w ∈ c.priorState.validatorSet, w.validators=I.valSet.validators) :
    (c.signatureValidators view).validators = I.valSet.validators := by
  have hcur : c.valSet.validators=I.valSet.validators := h (by omega)
  rcases hview with hview | hprior
  · rw [Core.signatureValidators_of_le (hwindow.1.trans_eq hview.symm)]
    exact hcur
  · unfold Core.signatureValidators
    split
    · cases hp : c.priorState.validatorSet with
      | none => exact hcur
      | some w => exact hprior w hp
    · exact hcur

/-- A message that a seated core verifies and keeps is sound. -/
theorem sound_of_verified (hhon : I.honest=cfg.honest) {m₀ m : Message} {c : Core} (hc : I.Seated c)
    (hnested : ∀ p, m₀ = .preprepare p → p.sequence=I.sequence →
      (∀ x ∈ p.justificationPrepares, x.sequence=I.sequence) ∨
      ∀ w ∈ c.priorState.validatorSet, w.validators=I.valSet.validators)
    (hauth : net.Authentic cfg m₀) (hv : m₀.verifySignatures c.validateFn = some m)
    (hlo : c.current.sequence ≤ m.view.sequence) (hhi : m.view.sequence ≤ c.current.sequence+1) :
    I.Sound net.signed m := by
  have hcode := Message.verifySignatures_code hv
  cases m with
  | preprepare m =>
    cases m₀ with
    | preprepare m₀ =>
      intro (hs : m.sequence=I.sequence)
      obtain ⟨hview,hrc,hp⟩ := Preprepare.verified hv
      have hwindow : c.current.sequence ≤ I.sequence ∧ I.sequence ≤ c.current.sequence+1 := ⟨hs ▸ hlo,hs ▸ hhi⟩
      refine ⟨fun rc hmem hseq => ?_,fun p hmem => ?_⟩
      · obtain ⟨rc₀,h₀,hver⟩ := hrc rc hmem
        refine .of_verified hhon hauth hver (hc.signatureValidators hwindow (.inl hseq)) ?_
        exact List.mem_cons_of_mem _ (List.mem_append_left _ (List.mem_map_of_mem h₀))
      · obtain ⟨p₀,h₀,hver⟩ := hp p hmem
        refine .of_verified hhon hauth hver (hc.signatureValidators hwindow ?_) ?_
        · refine (hnested m₀ rfl ((congrArg View.sequence hview).symm.trans hs)).imp_left fun h => ?_
          exact (congrArg View.sequence hver.view).trans (h p₀ h₀)
        · exact List.mem_cons_of_mem _ (List.mem_append_right _ (List.mem_map_of_mem h₀))
    | _ => cases hcode
  | prepare m =>
    cases m₀ with
    | prepare m₀ =>
      intro hs
      obtain ⟨p,hp,heq⟩ := Option.map_eq_some_iff.mp hv
      cases heq
      exact .of_verified hhon hauth (Prepare.verified hp)
        (hc.signatureValidators ⟨hs ▸ hlo,hs ▸ hhi⟩ (.inl hs)) List.mem_cons_self
    | _ => cases hcode
  | commit m =>
    cases m₀ with
    | commit m₀ =>
      exact fun hs => .of_verified hhon hauth (Commit.verified hv)
        (hc.signatureValidators ⟨hs ▸ hlo,hs ▸ hhi⟩ (.inl hs)) List.mem_cons_self
    | _ => cases hcode
  | roundChange m => trivial

structure NetInv (I : Instance) (net : Net) : Prop where
  lawful : I.Lawful net.signed
  stamped : Stamped net.signed
  numbered : ∀ a, (net.cores a).voter.Numbered
  voter : ∀ a ∈ I.honest, I.VoterInv net.signed a (net.cores a).voter
  held : ∀ a ∈ I.honest, ∀ m, (net.cores a).Holds m → I.Sound net.signed m
  seated : ∀ a ∈ I.honest, I.Seated (net.cores a)
  committed : ∀ a b, (a,I.sequence,b) ∈ net.committed →
    ∃ r, Supports I.quorums (votesAt I.sequence net.signed) (.commit r b.hash)

lemma netInv_init {backends : Address → Backend} (hb : ∀ a ∈ I.honest, I.Assumed (backends a)) :
    I.NetInv (Net.init cfg backends) where
  lawful := trivial
  stamped := by simp [Stamped,Net.init]
  numbered a := by
    rw [(init_spec cfg backends a).1]
    exact Voter.numbered_fresh _
  voter a _ := by
    refine ⟨fun _ w => by simp [Net.init,votesAt],fun hs => ?_⟩
    rw [(init_spec cfg backends a).1] at hs ⊢
    rw [show (backends a).lastProposal.number+1 = I.sequence from hs]
    exact voting_fresh (by simp [Net.init,votesAt])
  held a _ m hm := absurd hm ((init_spec cfg backends a).2.2 m)
  seated a ha hs := by
    obtain ⟨hv,hval,_⟩ := init_spec cfg backends a
    have hseq : ((Net.init cfg backends).cores a).current.sequence =
        (backends a).lastProposal.number+1 := congrArg Voter.sequence hv
    refine hval.trans ((hb a ha).validators ?_)
    omega
  committed := by simp [Net.init]

lemma mem_votesAt_own {a b : Address} {out : List SigningPayload} {w : Vote Hash} (hne : a≠b)
    (h : (a,w) ∈ votesAt I.sequence (out.map (b,·)++H)) : (a,w) ∈ votesAt I.sequence H := by
  obtain ⟨p,hp,hw⟩ := mem_votesAt.mp h
  rcases List.mem_append.mp hp with hp | hp
  · obtain ⟨q,_,heq⟩ := List.mem_map.mp hp
    exact absurd (congrArg Prod.fst heq).symm hne
  · exact mem_votesAt.mpr ⟨p,hp,hw⟩

theorem InOrder.orderly (h : I.InOrder net i) : (net.cores i.node).Orderly i.backend i.event where
  round := h.round
  head := h.head
  retry r hr := h.retry r (by simp [hr,Event.retryRound])

lemma NetInv.next (h : I.NetInv net) (hhon : I.honest=cfg.honest) (hen : net.Enabled cfg i)
    (hb : I.Assumed i.backend) (hok : I.Proper net i) : I.NetInv (net.next i) := by
  have hnode : i.node ∈ I.honest := hhon ▸ hen.1
  have hsim := coreAfter_simulates (I.Sound net.signed) hen (h.held _ hnode)
    fun m₀ m he hauth hv hlo hhi => sound_of_verified hhon (h.seated _ hnode)
      (fun p hp => hok.nested p (by simp [he,hp,Event.preprepare])) hauth hv hlo hhi
  have hmoves := hsim.validators
  have hkept := (h.voter _ hnode).step h.lawful h.stamped (h.numbered _)
    (fun hs => ⟨(hok.inOrder (.inl hs)).round,h.seated _ hnode (.inl hs)⟩) hb.bad hsim.step fun hs => by
      have hs' : (net.cores i.node).current.sequence = I.sequence ∨
          i.backend.lastProposal.number+1 = I.sequence := by
        simp only [Core.voter_sequence] at hs
        omega
      exact (hok.inOrder hs').orderly
  have hsub : net.signed ⊆ (net.next i).signed := List.subset_append_right _ _
  have hvotes : votesAt I.sequence net.signed ⊆ votesAt I.sequence (net.next i).signed := by
    show _ ⊆ votesAt I.sequence (_++net.signed)
    rw [votesAt_append]
    exact List.subset_append_right _ _
  refine ⟨hkept.lawful,h.stamped.append (hsim.step.stamped (h.numbered _)),
    forall_cores_next (P := fun _ c => c.voter.Numbered) ((h.numbered _).step hsim.step)
      fun a _ => h.numbered a,
    forall_cores_next (P := fun a c => a ∈ I.honest → I.VoterInv _ a c.voter) (fun _ => hkept.inv)
      fun a hne ha => (h.voter a ha).mono hvotes fun w hw => mem_votesAt_own hne hw,
    forall_cores_next (P := fun a c => a ∈ I.honest → ∀ m, c.Holds m → I.Sound _ m)
      (fun _ m hm => (hsim.holds m hm).mono hsub) fun a _ ha m hm => (h.held a ha m hm).mono hsub,
    forall_cores_next (P := fun a c => a ∈ I.honest → I.Seated c) (fun _ hs => ?_)
      fun a _ => h.seated a,
    fun a b hc => ?_⟩
  · rcases hmoves with ⟨hseq,hval⟩ | ⟨hseq,hval⟩
    · exact hval.trans (h.seated _ hnode (hseq ▸ hs))
    · exact hval.trans (hb.validators (by omega))
  · rcases List.mem_append.mp hc with hc | hc
    · obtain ⟨b',hb',heq⟩ := List.mem_map.mp hc
      simp only [Prod.mk.injEq] at heq
      obtain ⟨rfl,hseq,rfl⟩ := heq
      exact hkept.committed hseq b' hb'
    · obtain ⟨r,hr⟩ := h.committed a b hc
      exact ⟨r,hr.mono hvotes⟩

lemma netInv_of_reachable {backends : Address → Backend} (hhon : I.honest=cfg.honest)
    (hb : ∀ a ∈ I.honest, I.Assumed (backends a))
    (h : Net.Reachable cfg backends (fun net i => I.Assumed i.backend ∧ I.Proper net i) net) : I.NetInv net := by
  induction h with
  | init => exact netInv_init hb
  | step _ hen hok ih => exact ih.next hhon hen hok.1 hok.2

end Instance

/-- Agreement: in every run of proper inputs, all blocks committed in the sequence are the same. -/
theorem agreement_of_proper (I : Instance) (cfg : Config) (backends : Address → Backend)
    (hhon : I.honest=cfg.honest) (hgood : ∀ d, ¬ I.bad d) (hb : ∀ a ∈ I.honest, I.Assumed (backends a)) {net : Net}
    (h : net.Reachable cfg backends fun net i => I.Assumed i.backend ∧ I.Proper net i)
    {a a' : Address} {b b' : Block} (hc : (a,I.sequence,b) ∈ net.committed)
    (hc' : (a',I.sequence,b') ∈ net.committed) : b.hash=b'.hash := by
  have hinv := Instance.netInv_of_reachable hhon hb h
  obtain ⟨r,hr⟩ := hinv.committed a b hc
  obtain ⟨r',hr'⟩ := hinv.committed a' b' hc'
  exact Lib.Locking.Lawful.agreement hinv.lawful hr (hgood _) hr' (hgood _)

/-! ### Four validators, one of them Byzantine

Validator 3 is Byzantine; the others are honest and decide on the block after `block1`. -/

namespace FourValidators

def extra (prevSeal : Option WBFTAggregatedSeal) (epochInfo : Option EpochInfo) : WBFTExtra :=
  { vanityData := [], randaoReveal := [], prevRound := 0, prevPreparedSeal := prevSeal
    prevCommittedSeal := prevSeal, round := 0, preparedSeal := none, committedSeal := none
    gasTip := some 1, epochInfo }

def header (number : ℕ) (parentHash : Hash) (coinbase root : ℕ) (extra : WBFTExtra) : Header :=
  { uncleHash := 0, coinbase, root, txHash := 0, receiptHash := 0, bloom := 0, difficulty := 1
    number, gasLimit := 8000000, gasUsed := 0, time := number, mixDigest := 0, nonce := 0
    baseFee := some 20000000000000, withdrawalsHash := none, blobGasUsed := none
    excessBlobGas := none, parentBeaconRoot := none, parentHash, extra := .wbft extra }

def epochInfo : EpochInfo := ⟨[⟨1,0⟩,⟨2,0⟩,⟨3,0⟩,⟨4,0⟩],[0,1,2,3],[11,12,13,14]⟩

def genesis : Block := ⟨header 0 .zero 0 1 (extra none (some epochInfo))⟩

def block1 : Block := ⟨header 1 genesis.hash 1 1 (extra none none)⟩

def prevSeal : WBFTAggregatedSeal := ⟨[0b111],[1]⟩

/-- The proposals of validators 2 and 3 for sequence 2. -/
def blockA : Block := ⟨header 2 block1.hash 2 100 (extra (some prevSeal) none)⟩

@[inherit_doc blockA]
def blockB : Block := ⟨header 2 block1.hash 3 200 (extra (some prevSeal) none)⟩

def valSet : ValidatorSet := .newSet [1,2,3,4] [11,12,13,14] .roundRobin

def config : Config := ⟨[(1,11),(2,12),(4,14)]⟩

def inst : Instance := ⟨2,valSet,config.honest,fun _ => False,by decide,by decide⟩

def backend (head : Block) : Backend :=
  ⟨head,fun _ => valSet,fun _ => none,fun _ => false,fun _ => false⟩

lemma assumed (head : Block) : inst.Assumed (backend head) := ⟨fun _ => rfl,by simp [backend]⟩

def prepareBy (a : Address) (round : ℕ) (b : Block) : Prepare :=
  let s : Seal := ⟨10+a.toNat,prepareSeal b.header round .prepare⟩
  { sequence := b.number, round, source := a, signature := ⟨a,.prepare b.number round b.hash s⟩
    digest := b.hash, prepareSeal := s }

def commitBy (a : Address) (round : ℕ) (b : Block) : Commit :=
  let s : Seal := ⟨10+a.toNat,prepareSeal b.header round .commit⟩
  { sequence := b.number, round, source := a, signature := ⟨a,.commit b.number round b.hash s⟩
    digest := b.hash, commitSeal := s }

/-- A ROUND-CHANGE for round 1 of sequence 2, with a lock from round 0 if there is one. -/
def roundChangeBy (a : Address) (lock : Option Block) : SignedRoundChangePayload :=
  { sequence := 2, round := 1, source := a
    signature := ⟨a,.roundChange 2 1 (lock.map fun b => (0,b.hash))⟩
    preparedRound := lock.map fun _ => 0, preparedDigest := (lock.map Block.hash).getD .zero }

def proposalBy (a : Address) (round : ℕ) (b : Block) (rcs : List SignedRoundChangePayload)
    (prepares : List Prepare) : Preprepare :=
  { sequence := b.number, round, source := a, signature := ⟨a,.preprepare b.number round b⟩
    proposal := b, justificationRoundChanges := rcs, justificationPrepares := prepares }

def deliver (nodes : List Address) (ms : List Message) : List (Address × Event) :=
  nodes.flatMap fun n => ms.map fun m => (n,.message m)

/-- In round 0 validators 2 and 4 lock on `blockA`, and validator 2 commits it. -/
def round0 : List (Address × Event) :=
  (2,.request blockA)::deliver [2,4] [.preprepare (proposalBy 2 0 blockA [] [])] ++
  deliver [2,4] ([2,4,3].map fun a => .prepare (prepareBy a 0 blockA)) ++
  deliver [2] ([2,4,3].map fun a => .commit (commitBy a 0 blockA))

/-- In round 1 validators 1 and 4 lock on the proposal of validator 3, and validator 1 commits it. -/
def round1 (b : Block) (rcs : List SignedRoundChangePayload) (prepares : List Prepare) : List (Address × Event) :=
  [(1,.timeout),(4,.timeout)]++deliver [1,4] [.preprepare (proposalBy 3 1 b rcs prepares)] ++
  deliver [1,4] ([1,4,3].map fun a => .prepare (prepareBy a 1 b)) ++
  deliver [1] ([1,4,3].map fun a => .commit (commitBy a 1 b))

def inputs (head : Block) (script : List (Address × Event)) : List Input :=
  script.map fun x => ⟨x.1,backend head,x.2⟩

lemma assumed_inputs {head : Block} {script : List (Address × Event)} {i : Input}
    (hi : i ∈ inputs head script) : inst.Assumed i.backend := by
  obtain ⟨_,_,rfl⟩ := List.mem_map.mp hi
  exact assumed head

/-- A proper run over two rounds: the lock of round 0 is kept, and both rounds commit `blockA`. -/
theorem agreement_over_rounds : ∃ net : Net, (2,2,blockA) ∈ net.committed ∧ (1,2,blockA) ∈ net.committed ∧
    ∀ (a : Address) (b : Block), (a,2,b) ∈ net.committed → b.hash=blockA.hash := by
  obtain ⟨net,hreach,hA,hA'⟩ := Net.exists_reachable_of_run config (fun _ => backend block1)
    inst.Proper (fun net i => inst.Assumed i.backend ∧ inst.Proper net i)
    (inputs block1 (round0++round1 blockA
      [roundChangeBy 4 (some blockA),roundChangeBy 1 none,roundChangeBy 3 none]
      ([2,4,3].map (prepareBy · 0 blockA))))
    (fun _ hi _ h => ⟨assumed_inputs hi,h⟩)
    (fun net => (2,2,blockA) ∈ net.committed ∧ (1,2,blockA) ∈ net.committed) (by decide +kernel)
  exact ⟨net,hA,hA',fun a b hb => agreement_of_proper inst config (fun _ => backend block1) rfl
    (fun _ => id) (fun _ _ => assumed block1) hreach hb hA⟩

/-- Validator 4 starts on genesis and its timer fires after `block1` has arrived: it catches up with
sequence 2 and signs a ROUND-CHANGE for round 1 while it enters round 0. It locks on `blockA` there,
which validator 2 commits; the early ROUND-CHANGE, which has no lock, lets validator 3 propose
`blockB` in round 1, and validator 1 commits that. -/
theorem disagreement_after_catch_up : ∃ net : Net,
    net.Reachable config (fun a => backend (if a=4 then genesis else block1)) (fun _ i => inst.Assumed i.backend) ∧
    (∀ head, inst.Assumed (backend head)) ∧
    (2,inst.sequence,blockA) ∈ net.committed ∧ (1,inst.sequence,blockB) ∈ net.committed ∧ blockA.hash≠blockB.hash := by
  obtain ⟨net,hreach,hA,hB⟩ := Net.exists_reachable_of_run config
    (fun a => backend (if a=4 then genesis else block1)) (fun _ _ => True)
    (fun _ i => inst.Assumed i.backend)
    (inputs block1 ((4,.timeout)::round0++round1 blockB
      [roundChangeBy 4 none,roundChangeBy 1 none,roundChangeBy 3 none] []))
    (fun _ hi _ _ => assumed_inputs hi)
    (fun net => (2,2,blockA) ∈ net.committed ∧ (1,2,blockB) ∈ net.committed) (by decide +kernel)
  exact ⟨net,hreach,assumed,hA,hB,by decide⟩

end FourValidators

end StableNet.Wbft
