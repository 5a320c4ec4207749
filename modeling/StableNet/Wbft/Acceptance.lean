import StableNet.Wbft.Agreement

/-! Who justifies an accepted proposal. What is nested in a PREPREPARE is checked once, when it arrives, against the
validators of that moment. -/
namespace StableNet.Wbft
open Chain

def CommonPayload.SignedBy (m : CommonPayload) (valSet : ValidatorSet) (data : SigningPayload) : Prop :=
  m.signature = ⟨m.source,data⟩ ∧ m.source ∈ valSet.members

/-- Quorums of distinct validators signed the ROUND-CHANGEs of a proposal, which are for its view,
and, if it carries any, its PREPAREs, which are of its sequence. -/
structure Preprepare.WellJustified (m : Preprepare) (valSet : ValidatorSet) : Prop where
  roundChanges : QuorumOf (·.source) valSet.quorumSize
    (fun rc => rc.view=m.view ∧ rc.SignedBy valSet rc.encodePayloadForSigning)
    m.justificationRoundChanges
  prepares : m.justificationPrepares ≠ [] → QuorumOf (·.source) valSet.quorumSize
    (fun p => p.sequence=m.sequence ∧ p.SignedBy valSet p.encodePayloadForSigning)
    m.justificationPrepares

namespace Preprepare.WellJustified

variable {m : Preprepare} {v w : ValidatorSet}

lemma congr (h : m.WellJustified v) (hvw : v.validators=w.validators) : m.WellJustified w := by
  have hmem := ValidatorSet.members_eq_of_validators hvw
  have hq : v.quorumSize=w.quorumSize := by
    unfold ValidatorSet.quorumSize ValidatorSet.size
    rw [hvw]
  constructor
  · rw [← hq]
    exact h.roundChanges.mono fun rc _ hrc => ⟨hrc.1,hrc.2.1,hmem ▸ hrc.2.2⟩
  · rw [← hq]
    exact fun hne => (h.prepares hne).mono fun p _ hp => ⟨hp.1,hp.2.1,hmem ▸ hp.2.2⟩

theorem quorumSize_le (h : m.WellJustified v) :
    v.quorumSize ≤ ((m.justificationRoundChanges.map (·.source)).toFinset ∩ v.members).card := by
  obtain ⟨Q,hq,hQ⟩ := h.roundChanges.exists_finset
  refine hq.trans (Finset.card_le_card fun a ha => ?_)
  obtain ⟨rc,hmem,rfl,hrc⟩ := hQ a ha
  exact Finset.mem_inter.mpr ⟨List.mem_toFinset.mpr (List.mem_map_of_mem hmem),hrc.2.2⟩

end Preprepare.WellJustified

/-- What is known of the payloads nested in a proposal before they are counted. -/
structure Preprepare.Vetted (m : Preprepare) (valSet : ValidatorSet) : Prop where
  round : m.round<2^64
  roundChanges : ∀ rc ∈ m.justificationRoundChanges, rc.sequence=m.sequence →
    rc.SignedBy valSet rc.encodePayloadForSigning
  prepares : ∀ p ∈ m.justificationPrepares, p.sequence=m.sequence ∧
    p.SignedBy valSet p.encodePayloadForSigning

lemma Preprepare.Vetted.wellJustified {m : Preprepare} {valSet : ValidatorSet} (h : m.Vetted valSet)
    (hj : isJustified m.proposal m.view m.justificationRoundChanges m.justificationPrepares
      valSet.quorumSize=none) : m.WellJustified valSet := by
  have hview : ∀ rc ∈ m.justificationRoundChanges, ∀ p : Prop, rc.view=m.view ∧ p →
      rc.view=m.view ∧ rc.SignedBy valSet rc.encodePayloadForSigning :=
    fun rc hmem _ hv => ⟨hv.1,h.roundChanges rc hmem (congrArg View.sequence hv.1)⟩
  rcases isJustified_eq_none hj with ⟨hnil,hrc⟩ | ⟨pr,hrc,hp⟩
  · exact ⟨hrc.mono fun rc hmem => hview rc hmem _,fun hne => absurd hnil hne⟩
  · exact ⟨hrc.mono fun rc hmem => hview rc hmem _,fun _ => hp.mono fun p hmem _ => h.prepares p hmem⟩

section Sequences

variable (valSets : ℕ → ValidatorSet)

/-- A backend that reports the validators of the sequence after its head. -/
def Backend.Follows (b : Backend) : Prop :=
  (b.validators b.lastProposal).validators = (valSets (b.lastProposal.number+1)).validators

/-- The condition on an arriving proposal of a later round: the core has the validators of the
sequence of the proposal, and the PREPAREs it carries are of that sequence. -/
structure Core.Ready (c : Core) (m : Preprepare) : Prop where
  round : m.round<2^64
  validators : (valSets c.current.sequence).validators = (valSets m.sequence).validators
  prepares : ∀ p ∈ m.justificationPrepares, p.sequence=m.sequence

/-- Proposals of later rounds are vetted by the validators of their sequence. -/
def Message.Vetted : Message → Prop
  | .preprepare m => 0 < m.round → m.Vetted (valSets m.sequence)
  | _ => True

/-- A voter that has accepted a proposal in its round has a justification for it. -/
def Voter.Accepted (v : Voter) : Prop :=
  v.state ≠ .acceptRequest → ∃ m, v.preprepare = some m ∧ m.view=v.view ∧
    (0 < m.round → m.WellJustified (valSets m.sequence))

variable {valSets} {cfg : Config} {net : Net} {i : Input}

lemma Voter.Accepted.step {orderly : Prop} {bad : Hash → Prop} {valSet : ValidatorSet} {key : PublicKey}
    {out : List SigningPayload} {blocks : List Block} {v v' : Voter} (hi : v.Accepted valSets)
    (hval : valSet.validators = (valSets v.sequence).validators)
    (h : Voter.Step orderly bad (Message.Vetted valSets) valSet key v out blocks v') : v'.Accepted valSets := by
  cases h with
  | quiet | propose | resend | stray => exact hi
  | accept m havail hview hstate hnumber hjustified =>
    refine fun _ => ⟨m,rfl,hview,fun hpos => ?_⟩
    have hvet := havail hpos
    have hs : m.sequence=v.sequence := congrArg View.sequence hview
    have hq : valSet.quorumSize = (valSets m.sequence).quorumSize := by
      unfold ValidatorSet.quorumSize ValidatorSet.size
      rw [hval,hs]
    refine hvet.wellJustified (hq ▸ hjustified ?_)
    rwa [uint64_of_lt hvet.round]
  | prepare _ _ _ hstate | lock _ _ _ hstate | commit _ _ _ hstate | decide _ _ _ hstate =>
    exact fun _ => hi (by simp [hstate])
  | changeRound | changeSequence | catchUp =>
    exact fun hne => absurd rfl hne

theorem vetted_of_verified {m₀ m : Message} {c : Core}
    (hc : c.valSet.validators = (valSets c.current.sequence).validators)
    (hready : ∀ p, m₀ = .preprepare p → 0<p.round → c.Ready valSets p) (hv : m₀.verifySignatures c.validateFn = some m)
    (hlo : c.current.sequence ≤ m.view.sequence) : m.Vetted valSets := by
  have hcode := Message.verifySignatures_code hv
  cases m with
  | preprepare m =>
    cases m₀ with
    | preprepare m₀ =>
      intro hpos
      obtain ⟨hview,hrc,hp⟩ := Preprepare.verified hv
      have hround : m.round=m₀.round := congrArg View.round hview
      have hseq : m.sequence=m₀.sequence := congrArg View.sequence hview
      have hr := hready m₀ rfl (hround ▸ hpos)
      have hlo : c.current.sequence ≤ m.sequence := hlo
      -- payloads of the proposal's sequence were looked up in its validators
      have hsigned {p₀ p : CommonPayload} {data : SigningPayload} (h : c.Verified p₀ p data)
          (hs : p.sequence=m.sequence) : p.SignedBy (valSets m.sequence) data := by
        refine ⟨h.kept.trans h.signature,?_⟩
        have hmem := h.member
        rw [Core.signatureValidators_of_le (hlo.trans_eq hs.symm)] at hmem
        rwa [← ValidatorSet.members_eq_of_validators (hc.trans (hr.validators.trans (by rw [hseq])))]
      refine ⟨hround ▸ hr.round,fun rc hmem hs => ?_,fun p hmem => ?_⟩
      · obtain ⟨rc₀,_,hver⟩ := hrc rc hmem
        exact hsigned hver hs
      · obtain ⟨p₀,h₀,hver⟩ := hp p hmem
        have hs : p.sequence=m.sequence :=
          (congrArg View.sequence hver.view).trans ((hr.prepares p₀ h₀).trans hseq.symm)
        exact ⟨hs,hsigned hver hs⟩
    | _ => cases hcode
  | _ => trivial

variable (valSets) in
/-- The invariant of a core: its validators are those of its sequence, what it holds is vetted, and
what it has accepted is justified. -/
structure Core.Vetting (c : Core) : Prop where
  validators : c.valSet.validators = (valSets c.current.sequence).validators
  held : ∀ m, c.Holds m → m.Vetted valSets
  accepted : c.voter.Accepted valSets

variable (valSets) in
/-- The condition on an input: a proposal of a later round finds its node ready. -/
def Net.Readied (net : Net) (i : Input) : Prop :=
  i.backend.Follows valSets ∧
    ∀ m ∈ i.event.preprepare, 0 < m.round → (net.cores i.node).Ready valSets m

lemma vetting_of_reachable {backends : Address → Backend} (hb : ∀ a, (backends a).Follows valSets)
    (h : net.Reachable cfg backends (Net.Readied valSets)) : ∀ a, (net.cores a).Vetting valSets := by
  induction h with
  | init =>
    intro a
    obtain ⟨hv,hval,hh⟩ := Net.init_spec cfg backends a
    refine ⟨?_,fun m hm => absurd hm (hh m),?_⟩
    · have hseq : ((Net.init cfg backends).cores a).current.sequence =
          (backends a).lastProposal.number+1 := congrArg Voter.sequence hv
      rw [hval,hseq]
      exact hb a
    · rw [hv]
      exact fun hne => absurd rfl hne
  | @step net i _ hen hok ih =>
    have hc := ih i.node
    have hsim := Net.coreAfter_simulates (Message.Vetted valSets) hen hc.held
      fun m₀ m he _ hv hlo _ => vetted_of_verified hc.validators
        (fun p hp => hok.2 p (by simp [he,hp,Event.preprepare])) hv hlo
    refine Net.forall_cores_next (P := fun _ c => c.Vetting valSets)
      ⟨?_,hsim.holds,hc.accepted.step hc.validators hsim.step⟩ fun a _ => ih a
    rcases hsim.validators with ⟨hseq,hval⟩ | ⟨hseq,hval⟩
    · rw [hval,hseq]
      exact hc.validators
    · rw [hval,hseq]
      exact hok.1

end Sequences

/-- In every run in which proposals of later rounds find their nodes ready, a core that has accepted
a proposal in round `r > 0` of its sequence has it justified by quorums of its own validators. -/
theorem accepted_wellJustified (valSets : ℕ → ValidatorSet) (cfg : Config)
    (backends : Address → Backend) (hb : ∀ a, (backends a).Follows valSets) {net : Net}
    (h : net.Reachable cfg backends (Net.Readied valSets)) (a : Address)
    (hstate : (net.cores a).state ≠ .acceptRequest) (hround : 0<(net.cores a).current.round) :
    ∃ m, (net.cores a).current.preprepare = some m ∧ m.view = (net.cores a).currentView ∧
      m.WellJustified (net.cores a).valSet := by
  have hc := vetting_of_reachable hb h a
  obtain ⟨m,hm,hview,hj⟩ := hc.accepted hstate
  have hr : m.round = (net.cores a).current.round := congrArg View.round hview
  have hs : m.sequence = (net.cores a).current.sequence := congrArg View.sequence hview
  exact ⟨m,hm,hview,(hj (hr ▸ hround)).congr (by rw [hs,hc.validators])⟩

namespace FourValidators

def locked : Preprepare :=
  proposalBy 3 1 blockA [roundChangeBy 4 (some blockA),roundChangeBy 1 none,roundChangeBy 3 none]
    ([2,4,3].map (prepareBy · 0 blockA))

def untilLocked : List (Address × Event) :=
  round0++[(1,.timeout),(4,.timeout),(1,.message (.preprepare locked))]

/-- Node 1 accepts a proposal of round 1 that carries ROUND-CHANGEs and PREPAREs. -/
theorem locked_wellJustified : ∃ net : Net, (net.cores 1).current.preprepare = some locked ∧
    ∃ m, (net.cores 1).current.preprepare = some m ∧ m.view = (net.cores 1).currentView ∧
      m.WellJustified (net.cores 1).valSet := by
  have hready : ∀ x ∈ untilLocked, ∀ m ∈ x.2.preprepare, m.round<2^64 ∧
      ∀ p ∈ m.justificationPrepares, p.sequence=m.sequence := by decide
  obtain ⟨net,hreach,hstate,hround,hm⟩ := Net.exists_reachable_of_run config (fun _ => backend block1)
    (fun _ _ => True) (Net.Readied fun _ => valSet)
    (inputs block1 untilLocked)
    (fun i hi net _ => by
      obtain ⟨x,hx,rfl⟩ := List.mem_map.mp hi
      refine ⟨rfl,fun m hm _ => ?_⟩
      obtain ⟨hr,hp⟩ := hready x hx m hm
      exact ⟨hr,rfl,hp⟩)
    (fun net => (net.cores 1).state ≠ .acceptRequest ∧ 0<(net.cores 1).current.round ∧
      (net.cores 1).current.preprepare = some locked) (by decide +kernel)
  exact ⟨net,hm,accepted_wellJustified (fun _ => valSet) config (fun _ => backend block1)
    (fun _ => rfl) hreach 1 hstate hround⟩

end FourValidators

/-! ### A change of validators

Validators 3 and 4 leave after sequence 1. -/

namespace ChangedValidators
open FourValidators

def valSets (s : ℕ) : ValidatorSet :=
  if s ≤ 1 then .newSet [1,3,4,5] [11,13,14,15] .roundRobin
  else .newSet [1,2,5,6] [11,12,15,16] .roundRobin

def backendOn (head : Block) : Backend :=
  ⟨head,fun b => valSets (b.number+1),fun _ => none,fun _ => false,fun _ => false⟩

/-- A proposal for round 1 of sequence 2 that only validators of sequence 1 asked for. -/
def proposal : Preprepare :=
  proposalBy 5 1 blockB [roundChangeBy 3 none,roundChangeBy 4 none,roundChangeBy 5 none] []

/-- Node 1 receives the proposal in sequence 1, enters sequence 2 and accepts it in round 1, although
of the three that signed its ROUND-CHANGEs only validator 5 is in the validator set of sequence 2. -/
theorem accepts_former_validators : ∃ net : Net,
    net.Reachable ⟨[(1,11)]⟩ (fun _ => backendOn genesis) (fun _ i => i.backend.Follows valSets) ∧
    (∀ head, (backendOn head).Follows valSets) ∧
    (net.cores 1).state ≠ .acceptRequest ∧ (net.cores 1).currentView = ⟨2,1⟩ ∧
    (net.cores 1).current.preprepare = some proposal ∧ ¬ proposal.WellJustified (net.cores 1).valSet := by
  obtain ⟨net,hreach,hstate,hview,hm,hval⟩ := Net.exists_reachable_of_run ⟨[(1,11)]⟩
    (fun _ => backendOn genesis) (fun _ _ => True) (fun _ i => i.backend.Follows valSets)
    [⟨1,backendOn genesis,.message (.preprepare proposal)⟩,⟨1,backendOn block1,.finalCommitted⟩,
      ⟨1,backendOn block1,.timeout⟩,⟨1,backendOn block1,.backlog (.preprepare proposal)⟩]
    (by simp [Backend.Follows,backendOn])
    (fun net => (net.cores 1).state ≠ .acceptRequest ∧ (net.cores 1).currentView = ⟨2,1⟩ ∧
      (net.cores 1).current.preprepare = some proposal ∧
      (net.cores 1).valSet.validators = (valSets 2).validators) (by decide +kernel)
  refine ⟨net,hreach,fun _ => rfl,hstate,hview,hm,fun h => ?_⟩
  exact absurd (h.congr hval).quorumSize_le (by decide)

end ChangedValidators

end StableNet.Wbft
