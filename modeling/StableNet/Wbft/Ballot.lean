import StableNet.Wbft.Voter
import StableNet.Lib.Locking

/-! The votes of one sequence. An orderly step of a voter whose messages are backed by the history of votes keeps it
lawful. -/
namespace StableNet.Wbft
open Chain Lib Lib.Locking MsgSet
open SigningPayload

/-- Who has signed what, the latest first. -/
abbrev Signings := List (Address × SigningPayload)

variable {r : ℕ} {d : Hash}
variable {v : Vote Hash} {sig : Seal} {α : Type} {source : α → Address} {rc : SignedRoundChangePayload}
  {vote : Hash → Vote Hash}

/-- The vote a signed payload is in sequence `s`. -/
def SigningPayload.toVote (s : ℕ) : SigningPayload → Option (Vote Hash)
  | .preprepare _ _ _ => none
  | .prepare sequence r d _ => if sequence=s then some (.prepare r d) else none
  | .commit sequence r d _ => if sequence=s then some (.commit r d) else none
  | .roundChange sequence r l => if sequence=s then some (.roundChange r l) else none

/-- The votes of sequence `s` among the signed payloads. -/
def votesAt (s : ℕ) (H : Signings) : History Address Hash :=
  H.filterMap fun e => (e.2.toVote s).map (e.1,·)

section Votes

variable {s : ℕ} {H : Signings} {a : Address}

lemma mem_votesAt : (a,v) ∈ votesAt s H ↔ ∃ p, (a,p) ∈ H ∧ p.toVote s = some v := by
  unfold votesAt
  rw [List.mem_filterMap]
  constructor
  · rintro ⟨⟨a',p⟩,hp,heq⟩
    obtain ⟨v',hv',heq⟩ := Option.map_eq_some_iff.mp heq
    cases heq
    exact ⟨p,hp,hv'⟩
  · rintro ⟨p,hp,hv⟩
    exact ⟨(a,p),hp,by simp [hv]⟩

@[simp] lemma votesAt_append (H' : Signings) :
    votesAt s (H'++H) = votesAt s H'++votesAt s H := List.filterMap_append

lemma prepare_mem_votesAt (h : (a,.prepare s r d sig) ∈ H) :
    (a,.prepare r d) ∈ votesAt s H := mem_votesAt.mpr ⟨_,h,by simp [toVote]⟩

lemma commit_mem_votesAt (h : (a,.commit s r d sig) ∈ H) :
    (a,.commit r d) ∈ votesAt s H := mem_votesAt.mpr ⟨_,h,by simp [toVote]⟩

lemma roundChange_mem_votesAt {l : Option (ℕ × Hash)} (h : (a,.roundChange s r l) ∈ H) :
    (a,.roundChange r l) ∈ votesAt s H := mem_votesAt.mpr ⟨_,h,by simp [toVote]⟩

end Votes

def Stamped (H : Signings) : Prop := ∀ a p, (a,p) ∈ H → p.Stamped

lemma Stamped.append {H : Signings} {a : Address} {out : List SigningPayload}
    (h : Stamped H) (hout : ∀ p ∈ out, p.Stamped) : Stamped (out.map (a,·)++H) := by
  intro a' p hmem
  rcases List.mem_append.mp hmem with hmem | hmem
  · obtain ⟨q,hq,heq⟩ := List.mem_map.mp hmem
    cases heq
    exact hout p hq
  · exact h a' p hmem

/-- The setting of one sequence: its number, its validators, honest nodes enough, and the blocks that
backends may know as bad. -/
structure Instance where
  sequence : ℕ
  valSet : ValidatorSet
  honest : Finset Address
  bad : Hash → Prop
  nonempty : valSet.size≠0
  resilient : (valSet.members \ honest).card ≤ (valSet.size-1)/3

namespace Instance

def quorums (I : Instance) : Lib.QuorumSystem Address := I.valSet.quorums I.honest I.resilient

/-- The votes of the sequence obey the locking rule. -/
def Lawful (I : Instance) (H : Signings) : Prop :=
  Locking.Lawful I.quorums I.bad (votesAt I.sequence H)

/-- A payload comes from a validator, who signed it if honest. -/
def Backed (I : Instance) (H : Signings) (a : Address) (p : SigningPayload) : Prop :=
  a ∈ I.valSet.members ∧ (a ∈ I.honest → (a,p) ∈ H)

/-- What a core knows about a message of the sequence that it holds. -/
def Sound (I : Instance) (H : Signings) : Message → Prop
  | .preprepare m => m.sequence=I.sequence →
      (∀ rc ∈ m.justificationRoundChanges, rc.sequence=I.sequence →
        I.Backed H rc.source rc.encodePayloadForSigning) ∧
      ∀ p ∈ m.justificationPrepares, I.Backed H p.source p.encodePayloadForSigning
  | .prepare m => m.sequence=I.sequence → I.Backed H m.source m.encodePayloadForSigning
  | .commit m => m.sequence=I.sequence → I.Backed H m.source m.encodePayloadForSigning
  | .roundChange _ => True

variable {I : Instance} {H H' : Signings} {a : Address} {p : SigningPayload}

lemma Backed.mono (h : I.Backed H a p) (hsub : H ⊆ H') : I.Backed H' a p := ⟨h.1,fun ha => hsub (h.2 ha)⟩

lemma Sound.mono {m : Message} (h : I.Sound H m) (hsub : H ⊆ H') : I.Sound H' m := by
  cases m with
  | preprepare m =>
    intro hs
    obtain ⟨hrc,hp⟩ := h hs
    exact ⟨fun rc hm hq => (hrc rc hm hq).mono hsub,fun p hm => (hp p hm).mono hsub⟩
  | prepare | commit => exact fun hs => (h hs).mono hsub
  | roundChange m => trivial

theorem supports_of_quorumOf {msgs : List α} {P : α → Prop} (h : QuorumOf source I.valSet.quorumSize P msgs)
    (hback : ∀ m ∈ msgs, P m → source m ∈ I.valSet.members ∧
      (source m ∈ I.honest → (source m,v) ∈ votesAt I.sequence H)) : Supports I.quorums (votesAt I.sequence H) v := by
  obtain ⟨Q,hq,hQ⟩ := h.exists_finset
  refine ⟨Q,⟨fun x hx => ?_,hq⟩,fun x hx hh => ?_⟩
  · obtain ⟨m,hm,rfl,hP⟩ := hQ x hx
    exact (hback m hm hP).1
  · obtain ⟨m,hm,rfl,hP⟩ := hQ x hx
    exact (hback m hm hP).2 hh

lemma prepared_eq_none_of_isNil (h : rc.isNil=true) : rc.prepared=none := by
  simp only [SignedRoundChangePayload.isNil,decide_eq_true_eq] at h
  unfold SignedRoundChangePayload.prepared
  cases rc.preparedRound <;> simp [h.2]

lemma le_of_lowerOrEqual {pr : ℕ} (h : rc.lowerOrEqual pr=true) : ∀ x ∈ rc.prepared, x.1 ≤ pr := by
  intro x hx
  unfold SignedRoundChangePayload.prepared at hx
  unfold SignedRoundChangePayload.lowerOrEqual at h
  cases hr : rc.preparedRound with
  | none => simp [hr] at hx
  | some r =>
    simp only [hr,decide_eq_true_eq] at h
    simp only [hr] at hx
    split at hx
    · simp only [Option.mem_def,Option.some.injEq] at hx
      rw [← hx]
      exact h
    · simp at hx

theorem Sound.justified {m : Preprepare} (h : I.Sound H (.preprepare m)) (hn : Stamped H)
    (hview : m.view = ⟨I.sequence,r⟩) (hnumber : m.proposal.number=I.sequence)
    (hj : isJustified m.proposal m.view m.justificationRoundChanges m.justificationPrepares
      I.valSet.quorumSize=none) : Justified I.quorums (votesAt I.sequence H) r m.proposal.hash := by
  obtain ⟨hrc,hp⟩ := h (congrArg View.sequence hview)
  have hvote : ∀ rc ∈ m.justificationRoundChanges, rc.view=m.view →
      rc.source ∈ I.valSet.members ∧ (rc.source ∈ I.honest →
        (rc.source,.roundChange r rc.prepared) ∈ votesAt I.sequence H) := by
    intro rc hmem hv
    rw [hview] at hv
    have hseq : rc.sequence=I.sequence := congrArg View.sequence hv
    have hr : rc.round=r := congrArg View.round hv
    obtain ⟨hin,hsig⟩ := hrc rc hmem hseq
    refine ⟨hin,fun hh => roundChange_mem_votesAt ?_⟩
    have := hsig hh
    unfold SignedRoundChangePayload.encodePayloadForSigning at this
    rwa [hseq,hr] at this
  rcases isJustified_eq_none hj with ⟨_,hnil⟩ | ⟨pr,hlow,hprep⟩
  · obtain ⟨Q,hq,hQ⟩ := hnil.exists_finset
    refine .fresh Q ⟨fun x hx => ?_,hq⟩ fun x hx hh => ?_
    · obtain ⟨rc,hm,rfl,hP⟩ := hQ x hx
      exact (hvote rc hm hP.1).1
    · obtain ⟨rc,hm,rfl,hP⟩ := hQ x hx
      have := (hvote rc hm hP.1).2 hh
      rwa [prepared_eq_none_of_isNil hP.2] at this
  · obtain ⟨Q,hq,hQ⟩ := hlow.exists_finset
    refine .locked pr Q ⟨fun x hx => ?_,hq⟩ (fun x hx hh => ?_) (supports_of_quorumOf hprep ?_)
    · obtain ⟨rc,hm,rfl,hP⟩ := hQ x hx
      exact (hvote rc hm hP.1).1
    · obtain ⟨rc,hm,rfl,hP⟩ := hQ x hx
      exact ⟨rc.prepared,(hvote rc hm hP.1).2 hh,le_of_lowerOrEqual hP.2⟩
    · intro p hm ⟨hr,hd⟩
      obtain ⟨hin,hsig⟩ := hp p hm
      refine ⟨hin,fun hh => ?_⟩
      have hmem := hsig hh
      unfold Prepare.encodePayloadForSigning at hmem
      -- the sequence of a nested PREPARE is not checked, but an honest signer goes by the block
      obtain ⟨b,hb,hbn,_⟩ := hn _ _ hmem
      have hseq : p.sequence=I.sequence := by
        rw [← hbn,← hnumber]
        exact Header.number_eq_of_hash_eq (hb.trans hd)
      rw [hseq,hr,hd] at hmem
      exact prepare_mem_votesAt hmem

/-- A stored message is filed under its source, a validator, who cast the vote it reports if honest,
and it names the proposal of the round. -/
def StoredFor (I : Instance) (H : Signings) (v : Voter) (src source : Address)
    (digest : Hash) (vote : Hash → Vote Hash) : Prop :=
  source=src ∧ src ∈ I.valSet.members ∧ (∀ b, v.proposal = some b → digest=b.hash) ∧
    (src ∈ I.honest → (src,vote digest) ∈ votesAt I.sequence H)

/-- The lock of node `a` in a round covers every round in which it committed, unless it committed a
bad block since; and it is on a block it committed itself. -/
structure Covered (I : Instance) (H : Signings) (a : Address)
    (lock : Option (ℕ × Hash)) (round : ℕ) : Prop where
  covers : ∀ r d, (a,.commit r d) ∈ votesAt I.sequence H → (∃ p ∈ lock, r ≤ p.1) ∨
    ∃ r₂ d₂, (a,.commit r₂ d₂) ∈ votesAt I.sequence H ∧ r ≤ r₂ ∧ I.bad d₂
  own : ∀ p ∈ lock, (a,.commit p.1 p.2) ∈ votesAt I.sequence H
  past : ∀ r d, (a,.commit r d) ∈ votesAt I.sequence H → r ≤ round

namespace Covered

variable {lock : Option (ℕ × Hash)} {round round' : ℕ}

section
variable (h : I.Covered H a lock round)
include h

lemma mono (hsub : votesAt I.sequence H ⊆ votesAt I.sequence H')
    (hown : ∀ r d, (a,.commit r d) ∈ votesAt I.sequence H' → (a,.commit r d) ∈ votesAt I.sequence H)
    (hle : round ≤ round') : I.Covered H' a lock round' where
  covers r d hc := (h.covers r d (hown r d hc)).imp_right fun ⟨r₂,d₂,hc₂,h₂⟩ => ⟨r₂,d₂,hsub hc₂,h₂⟩
  own p hp := hsub (h.own p hp)
  past r d hc := (h.past r d (hown r d hc)).trans hle

lemma drop (hbad : ∀ p ∈ lock, I.bad p.2) : I.Covered H a none round where
  covers r d hc := by
    rcases h.covers r d hc with ⟨p,hp,hle⟩ | h
    · exact .inr ⟨p.1,p.2,h.own p hp,hle,hbad p hp⟩
    · exact .inr h
  own := by simp
  past := h.past

lemma renew (hnew : ∀ x, (a,x) ∈ votesAt I.sequence H' → x = .commit round d ∨ (a,x) ∈ votesAt I.sequence H)
    (hmem : (a,.commit round d) ∈ votesAt I.sequence H') : I.Covered H' a (some (round,d)) round where
  covers r d' hc := by
    refine .inl ⟨(round,d),rfl,?_⟩
    rcases hnew _ hc with heq | hc
    · cases heq; exact le_rfl
    · exact h.past r d' hc
  own := by simpa using hmem
  past r d' hc := by
    rcases hnew _ hc with heq | hc
    · cases heq; exact le_rfl
    · exact h.past r d' hc

end

end Covered

/-- What holds of the votes of node `a` while its voter `v` is in the sequence. -/
structure Voting (I : Instance) (H : Signings) (a : Address) (v : Voter) : Prop where
  /-- Nothing is stored before a proposal is accepted. -/
  idle : v.state = .acceptRequest → v.prepares=∅ ∧ v.commits=∅
  prepares : v.prepares.All fun src m => I.StoredFor H v src m.source m.digest (.prepare v.round)
  commits : v.commits.All fun src m => I.StoredFor H v src m.source m.digest (.commit v.round)
  /-- The rounds prepared in are past, or the current one once a proposal is accepted. -/
  prepared : ∀ r d, (a,.prepare r d) ∈ votesAt I.sequence H →
    r<v.round ∨ r=v.round ∧ v.state ≠ .acceptRequest
  locked : I.Covered H a v.lock v.round
  /-- A voter leaves only for the rounds it has entered, or the next one once it has committed. -/
  left : ∀ r l, (a,.roundChange r l) ∈ votesAt I.sequence H →
    r ≤ v.round ∨ r = v.round+1 ∧ v.state = .committed

/-- The invariant of a voter with respect to the votes of the sequence. -/
structure VoterInv (I : Instance) (H : Signings) (a : Address) (v : Voter) : Prop where
  before : v.sequence<I.sequence → ∀ w, (a,w) ∉ votesAt I.sequence H
  during : v.sequence=I.sequence → I.Voting H a v

variable {v : Voter}

lemma StoredFor.mono {src source : Address} {digest : Hash} (h : I.StoredFor H v src source digest vote)
    (hsub : votesAt I.sequence H ⊆ votesAt I.sequence H') :
    I.StoredFor H' v src source digest vote := ⟨h.1,h.2.1,h.2.2.1,fun hh => hsub (h.2.2.2 hh)⟩

theorem VoterInv.mono (h : I.VoterInv H a v) (hsub : votesAt I.sequence H ⊆ votesAt I.sequence H')
    (hown : ∀ w, (a,w) ∈ votesAt I.sequence H' → (a,w) ∈ votesAt I.sequence H) : I.VoterInv H' a v where
  before hlt w hw := h.before hlt w (hown w hw)
  during heq :=
    let d := h.during heq
    { idle := d.idle
      prepares := d.prepares.mono fun _ _ h => h.mono hsub
      commits := d.commits.mono fun _ _ h => h.mono hsub
      prepared := fun r x hx => d.prepared r x (hown _ hx)
      locked := d.locked.mono hsub (fun _ _ hx => hown _ hx) le_rfl
      left := fun r l hl => d.left r l (hown _ hl) }

theorem voting_fresh (h : ∀ w, (a,w) ∉ votesAt I.sequence H) : I.Voting H a (.fresh I.sequence) where
  idle _ := ⟨rfl,rfl⟩
  prepares := all_empty
  commits := all_empty
  prepared r d hd := absurd hd (h _)
  locked := ⟨fun r d hd => absurd hd (h _),by simp [Voter.lock,Voter.fresh],fun r d hd => absurd hd (h _)⟩
  left r l hl := absurd hl (h _)

section Cast

variable (hs : v.sequence=I.sequence)

include hs

lemma votesAt_signPrepare (key : PublicKey) (b : Block) :
    votesAt I.sequence [(a,v.signPrepare key b)] = [(a,.prepare v.round b.hash)] := by
  simp [votesAt,Voter.signPrepare,toVote,hs]

lemma votesAt_signCommit (key : PublicKey) (b : Block) :
    votesAt I.sequence [(a,v.signCommit key b)] = [(a,.commit v.round b.hash)] := by
  simp [votesAt,Voter.signCommit,toVote,hs]

lemma votesAt_signRoundChange (r : ℕ) : votesAt I.sequence [(a,v.signRoundChange r)] = [(a,.roundChange r v.lock)] := by
  simp [votesAt,Voter.signRoundChange,toVote,hs]

end Cast
variable {w : Vote Hash} {b : Block}

/-- Casting a vote that obeys the rule keeps the history lawful. -/
theorem lawful_cast (hL : I.Lawful H)
    (hp : votesAt I.sequence [(a,p)] = [(a,w)]) (hrule : Rule I.quorums I.bad (votesAt I.sequence H) a w) :
    I.Lawful ([(a,p)]++H) := by
  unfold Lawful
  rw [votesAt_append,hp]
  exact ⟨fun _ => hrule,hL⟩

lemma mem_cast {x : Vote Hash} (hp : votesAt I.sequence [(a,p)] = [(a,w)])
    (hx : (a,x) ∈ votesAt I.sequence ([(a,p)]++H)) : x=w ∨ (a,x) ∈ votesAt I.sequence H := by
  rw [votesAt_append,hp] at hx
  rcases List.mem_cons.mp hx with h | h
  · exact .inl (congrArg Prod.snd h)
  · exact .inr h

lemma cast_mem (hp : votesAt I.sequence [(a,p)] = [(a,w)]) : (a,w) ∈ votesAt I.sequence ([(a,p)]++H) := by
  rw [votesAt_append,hp]
  exact List.mem_cons_self

lemma Lawful.congr (hL : I.Lawful H) (h : votesAt I.sequence H' = votesAt I.sequence H) : I.Lawful H' := by
  unfold Lawful
  rw [h]
  exact hL

lemma subset_cast (p : SigningPayload) : votesAt I.sequence H ⊆ votesAt I.sequence ([(a,p)]++H) := by
  rw [votesAt_append]
  exact List.subset_append_right _ _

theorem Voting.rule_roundChange (d : I.Voting H a v) (r : ℕ) :
    Rule I.quorums I.bad (votesAt I.sequence H) a (.roundChange r v.lock) :=
  fun r₀ d₀ hc _ => d.locked.covers r₀ d₀ hc

lemma Voting.leave (d : I.Voting H a v) (hs : v.sequence=I.sequence)
    (hr : r ≤ v.round ∨ r = v.round+1 ∧ v.state = .committed) : I.Voting ([(a,v.signRoundChange r)]++H) a v := by
  have hp := votesAt_signRoundChange (a := a) hs r
  exact
    { idle := d.idle
      prepares := d.prepares.mono fun _ _ h => h.mono (subset_cast _)
      commits := d.commits.mono fun _ _ h => h.mono (subset_cast _)
      prepared := fun r' x hx => d.prepared r' x ((mem_cast hp hx).resolve_left (by simp))
      locked := d.locked.mono (subset_cast _) (fun _ _ hx => (mem_cast hp hx).resolve_left (by simp)) le_rfl
      left := fun r' l hl => by
        rcases mem_cast hp hl with h | h
        · cases h; exact hr
        · exact d.left r' l h }

lemma Voting.accept (d : I.Voting H a v) (hs : v.sequence=I.sequence)
    (hstate : v.state = .acceptRequest) (key : PublicKey) (m : Preprepare) :
    I.Voting ([(a,v.signPrepare key m.proposal)]++H) a (v.accept m) := by
  have hp := votesAt_signPrepare (a := a) hs key m.proposal
  obtain ⟨hprep,hcom⟩ := d.idle hstate
  exact
    { idle := fun h => by simp [Voter.accept] at h
      prepares := by simp only [Voter.accept,hprep]; exact all_empty
      commits := by simp only [Voter.accept,hcom]; exact all_empty
      prepared := fun r x hx => by
        rcases mem_cast hp hx with h | h
        · cases h; exact .inr ⟨rfl,by simp [Voter.accept]⟩
        · rcases d.prepared r x h with h | ⟨_,h⟩
          · exact .inl h
          · exact absurd hstate h
      locked := d.locked.mono (subset_cast _) (fun _ _ hx => (mem_cast hp hx).resolve_left (by simp)) le_rfl
      left := fun r l hl => by
        rcases d.left r l ((mem_cast hp hl).resolve_left (by simp)) with h | ⟨_,h⟩
        · exact .inl h
        · rw [hstate] at h; cases h }

theorem Voting.addPrepare (d : I.Voting H a v) (hs : v.sequence=I.sequence) {m : Prepare}
    (htakes : v.Takes (I.Sound H) (.prepare m) m.digest b) (hstate : v.state ≠ .acceptRequest) :
    I.Voting H a (v.addPrepare m) := by
  have hseq : m.sequence=I.sequence := (congrArg View.sequence htakes.view).trans hs
  have hround : m.round=v.round := congrArg View.round htakes.view
  obtain ⟨hin,hsig⟩ := htakes.avail hseq
  refine { d with idle := fun h => absurd h hstate, prepares := d.prepares.add ⟨rfl,hin,?_,?_⟩ }
  · intro b' hb'
    rw [htakes.digest,Option.some.inj (htakes.proposal.symm.trans hb')]
  · intro hh
    have := hsig hh
    unfold Prepare.encodePayloadForSigning at this
    rw [hseq,hround] at this
    exact prepare_mem_votesAt this

lemma Voting.addCommit (d : I.Voting H a v) (hs : v.sequence=I.sequence) {m : Commit}
    (htakes : v.Takes (I.Sound H) (.commit m) m.digest b) (hstate : v.state ≠ .acceptRequest) :
    I.Voting H a (v.addCommit m) := by
  have hseq : m.sequence=I.sequence := (congrArg View.sequence htakes.view).trans hs
  have hround : m.round=v.round := congrArg View.round htakes.view
  obtain ⟨hin,hsig⟩ := htakes.avail hseq
  refine { d with idle := fun h => absurd h hstate, commits := d.commits.add ⟨rfl,hin,?_,?_⟩ }
  · intro b' hb'
    rw [htakes.digest,Option.some.inj (htakes.proposal.symm.trans hb')]
  · intro hh
    have := hsig hh
    unfold Commit.encodePayloadForSigning at this
    rw [hseq,hround] at this
    exact commit_mem_votesAt this

theorem supports_of_stored {digest : α → Hash} {ms : MsgSet α} (hb : v.proposal = some b)
    (h : ms.All fun src m => I.StoredFor H v src (source m) (digest m) vote) (hq : I.valSet.quorumSize ≤ ms.size) :
    Supports I.quorums (votesAt I.sequence H) (vote b.hash) := by
  obtain ⟨A,hA,hn,hlen,hP⟩ := MsgSet.All.quorumOf h
  refine supports_of_quorumOf ⟨A,hA,hn,hq.trans hlen,hP⟩ fun m _ hm => ⟨hm.1,fun hh => ?_⟩
  have := hm.2.2 hh
  rwa [hm.2.1 b hb] at this

lemma Voting.lockOn (d : I.Voting H a v) (hs : v.sequence=I.sequence)
    (hstate : v.state = .preprepared) (key : PublicKey) (b : Block) :
    I.Voting ([(a,v.signCommit key b)]++H) a (v.lockOn b) := by
  have hp := votesAt_signCommit (a := a) hs key b
  exact
    { idle := fun h => by simp [Voter.lockOn] at h
      prepares := d.prepares.mono fun _ _ h => h.mono (subset_cast _)
      commits := d.commits.mono fun _ _ h => h.mono (subset_cast _)
      prepared := fun r x hx => by
        rcases d.prepared r x ((mem_cast hp hx).resolve_left (by simp)) with h | ⟨h,_⟩
        · exact .inl h
        · exact .inr ⟨h,by simp [Voter.lockOn]⟩
      locked := d.locked.renew (fun x hx => mem_cast hp hx) (cast_mem hp)
      left := fun r l hl => by
        rcases d.left r l ((mem_cast hp hl).resolve_left (by simp)) with h | ⟨_,h⟩
        · exact .inl h
        · rw [hstate] at h; cases h }

lemma Voting.unlock (d : I.Voting H a v) (hb : v.preparedBlock = some b)
    (hbad : I.bad b.hash) : I.Voting H a v.unlock :=
  { d with
    locked := d.locked.drop fun p hp => by
      unfold Voter.lock at hp
      cases hr : v.preparedRound <;> simp [hr,hb] at hp
      rwa [← hp] }

lemma Voting.enter (d : I.Voting H a v) (hs : v.sequence=I.sequence) (hr : v.round<r) :
    I.Voting ([(a,v.signRoundChange r)]++H) a (v.enter r) := by
  have hp := votesAt_signRoundChange (a := a) hs r
  exact
    { idle := fun _ => ⟨rfl,rfl⟩
      prepares := all_empty
      commits := all_empty
      prepared := fun r' x hx => .inl <| by
        have := d.prepared r' x ((mem_cast hp hx).resolve_left (by simp))
        simp only [Voter.enter]
        omega
      locked := d.locked.mono (subset_cast _) (fun _ _ hx => (mem_cast hp hx).resolve_left (by simp)) hr.le
      left := fun r' l hl => .inl <| by
        simp only [Voter.enter]
        rcases mem_cast hp hl with h | h
        · cases h; exact le_rfl
        · have := d.left r' l h
          omega }

/-- What an event leaves behind: lawful votes, the invariant, and support for what was committed. -/
structure Kept (I : Instance) (H : Signings) (a : Address) (v v' : Voter)
    (blocks : List Block) : Prop where
  lawful : I.Lawful H
  inv : I.VoterInv H a v'
  committed : v.sequence=I.sequence → ∀ b ∈ blocks, ∃ r,
    Supports I.quorums (votesAt I.sequence H) (.commit r b.hash)

section Step

variable {orderly : Prop} {bad : Hash → Prop} {avail : Message → Prop} {valSet : ValidatorSet}
  {key : PublicKey} {out : List SigningPayload} {blocks : List Block} {v' : Voter}

theorem votesAt_of_step (h : Voter.Step orderly bad avail valSet key v out blocks v')
    (hs : v.sequence≠I.sequence) (ho : v'.sequence=I.sequence → orderly) : votesAt I.sequence (out.map (a,·)) = [] := by
  cases h with
  | quiet | prepare | commit | changeSequence => rfl
  | propose => simp [votesAt,toVote]
  | accept => simp [votesAt,toVote,Voter.signPrepare,hs]
  | lock => simp [votesAt,toVote,Voter.signCommit,hs]
  | decide m b htakes hstate hquorum _ hout =>
    rcases hout with rfl | rfl
    · rfl
    · simp [votesAt,toVote,Voter.signRoundChange,hs]
  | changeRound r w hw =>
    have hw : w.sequence≠I.sequence := by
      rcases hw with rfl | ⟨rfl,_⟩
      · exact hs
      · exact hs
    simp [votesAt,toVote,Voter.signRoundChange,hw]
  | resend | stray => simp [votesAt,toVote,Voter.signRoundChange,hs]
  | catchUp s r hlt h =>
    have hne : s≠I.sequence := fun heq => h (ho heq)
    simp [votesAt,toVote,Voter.signRoundChange,Voter.fresh,hne]

lemma VoterInv.step_outside (hL : I.Lawful H) (hi : I.VoterInv H a v)
    (h : Voter.Step orderly bad avail valSet key v out blocks v') (hs : v.sequence≠I.sequence)
    (ho : v'.sequence=I.sequence → orderly) : I.Kept (out.map (a,·)++H) a v v' blocks := by
  have hv : votesAt I.sequence (out.map (a,·)++H) = votesAt I.sequence H := by
    rw [votesAt_append,votesAt_of_step h hs ho,List.nil_append]
  refine ⟨hL.congr hv,⟨fun hlt => ?_,fun heq => ?_⟩,fun h => absurd h hs⟩
  · rw [hv]
    refine hi.before ?_
    rcases h.sequence with h | ⟨s,hs,rfl⟩
    · exact h ▸ hlt
    · exact hs.trans hlt
  · rcases h.sequence with h | ⟨s,hs,rfl⟩
    · exact absurd (h.symm.trans heq) hs
    · obtain rfl : s=I.sequence := heq
      exact voting_fresh (hv ▸ hi.before hs)

lemma Kept.of_voting (hL : I.Lawful H) (d : I.Voting H a v') (hs : v'.sequence=I.sequence)
    (hb : ∀ b ∈ blocks, ∃ r, Supports I.quorums (votesAt I.sequence H) (.commit r b.hash)) : I.Kept H a v v' blocks :=
  ⟨hL,⟨fun hlt => absurd hs hlt.ne,fun _ => d⟩,fun _ => hb⟩

lemma Voting.step (hL : I.Lawful H) (hn : Stamped H) (d : I.Voting H a v) (hv : v.Numbered)
    (hs : v.sequence=I.sequence) (hround : v.round<2^64) (hval : valSet.validators=I.valSet.validators)
    (hbad : ∀ b : Block, b.number=I.sequence → bad b.hash → I.bad b.hash)
    (h : Voter.Step orderly bad (I.Sound H) valSet key v out blocks v') (ho : orderly) :
    I.Kept (out.map (a,·)++H) a v v' blocks := by
  have hsize : valSet.size=I.valSet.size := congrArg List.length hval
  have hq : valSet.quorumSize=I.valSet.quorumSize := by
    unfold ValidatorSet.quorumSize
    rw [hsize]
  cases h with
  | quiet => exact .of_voting hL d hs (by simp)
  | propose b =>
    have hv : votesAt I.sequence ([(a,.preprepare v.sequence v.round b)]++H) = votesAt I.sequence H := by
      simp [votesAt,toVote]
    refine ⟨hL.congr hv,VoterInv.mono ⟨fun hlt => absurd hs hlt.ne,fun _ => d⟩ (subset_cast _) ?_,by simp⟩
    exact fun w hw => hv ▸ hw
  | accept m havail hview hstate hnumber hjustified =>
    have hnum : m.proposal.number=I.sequence := hnumber.symm.trans ((congrArg View.sequence hview).trans hs)
    refine .of_voting (lawful_cast hL (votesAt_signPrepare hs key _) ⟨fun d' hd' => ?_,fun hpos => ?_⟩)
      (d.accept hs hstate key m) hs (by simp)
    · rcases d.prepared _ _ hd' with h | ⟨_,h⟩
      · exact absurd h (lt_irrefl _)
      · exact absurd hstate h
    · have hr : m.round=v.round := congrArg View.round hview
      refine Sound.justified havail hn (by rw [hview,Voter.view,hs]) hnum (hq ▸ hjustified ?_)
      rwa [hr,uint64_of_lt hround]
  | prepare m b htakes hstate =>
    exact .of_voting hL (d.addPrepare hs htakes (by simp [hstate])) hs (by simp)
  | lock m b htakes hstate hquorum =>
    have d' := d.addPrepare hs htakes (by simp [hstate])
    refine .of_voting (lawful_cast hL (votesAt_signCommit hs key _) ⟨?_,fun r' l hl => ?_⟩)
      (d'.lockOn hs hstate key b) hs (by simp)
    · exact supports_of_stored (v := v.addPrepare m) htakes.proposal d'.prepares (hq ▸ hquorum)
    · rcases d.left r' l hl with h | ⟨_,h⟩
      · exact h
      · rw [hstate] at h; cases h
  | commit m b htakes hstate =>
    exact .of_voting hL (d.addCommit hs htakes (by simp [hstate])) hs (by simp)
  | decide m b htakes hstate hquorum _ hout =>
    have d' := d.addCommit hs htakes (by simp [hstate])
    have hsup := supports_of_stored (v := v.addCommit m) htakes.proposal d'.commits (hq ▸ hquorum)
    have d'' : I.Voting H a { v.addCommit m with state := .committed } :=
      { d' with
        idle := fun h => by simp at h
        prepared := fun r x hx => (d'.prepared r x hx).imp_right fun h => ⟨h.1,by simp⟩
        left := fun r l hl => (d'.left r l hl).imp_right fun h => ⟨h.1,rfl⟩ }
    rcases hout with rfl | rfl
    · exact .of_voting hL d'' hs (by simpa using ⟨_,hsup⟩)
    · refine .of_voting (lawful_cast hL (votesAt_signRoundChange hs _) (d.rule_roundChange _))
        (d''.leave hs (.inr ⟨rfl,rfl⟩)) hs ?_
      simpa using ⟨_,hsup.mono (subset_cast _)⟩
  | changeRound r w hw hle hlt =>
    have hlt := hlt ho (hsize ▸ I.nonempty)
    rcases hw with rfl | ⟨rfl,b,hb,hbb⟩
    · exact .of_voting (lawful_cast hL (votesAt_signRoundChange hs _) (d.rule_roundChange _))
        (d.enter hs hlt) hs (by simp)
    · have d' := d.unlock hb (hbad b ((hv b (.inr hb)).trans hs) hbb)
      exact .of_voting (lawful_cast hL (votesAt_signRoundChange (v := v.unlock) hs _)
        (d'.rule_roundChange _)) (d'.enter hs hlt) hs (by simp)
  | resend =>
    exact .of_voting (lawful_cast hL (votesAt_signRoundChange hs _) (d.rule_roundChange _))
      (d.leave hs (.inl le_rfl)) hs (by simp)
  | stray _ _ h => exact absurd ho h
  | changeSequence s hlt =>
    refine ⟨hL,⟨fun h => ?_,fun h => ?_⟩,by simp⟩
    · have : s<I.sequence := h
      omega
    · have : s=I.sequence := h
      omega
  | catchUp _ _ _ h => exact absurd ho h

/-- An event that is orderly whenever it starts or ends in the sequence keeps the votes of the
sequence lawful. -/
theorem VoterInv.step (hL : I.Lawful H) (hn : Stamped H) (hi : I.VoterInv H a v) (hv : v.Numbered)
    (hval : v.sequence=I.sequence → v.round<2^64 ∧ valSet.validators=I.valSet.validators)
    (hbad : ∀ b : Block, b.number=I.sequence → bad b.hash → I.bad b.hash)
    (h : Voter.Step orderly bad (I.Sound H) valSet key v out blocks v')
    (ho : v.sequence=I.sequence ∨ v'.sequence=I.sequence → orderly) : I.Kept (out.map (a,·)++H) a v v' blocks := by
  by_cases hs : v.sequence=I.sequence
  · exact (hi.during hs).step hL hn hv hs (hval hs).1 (hval hs).2 hbad h (ho (.inl hs))
  · exact hi.step_outside hL h hs fun h => ho (.inr h)

end Step

end Instance

end StableNet.Wbft
