import StableNet.Wbft.Messages

/-! The justification check of proposals for rounds above zero. A check returns the text of its error, or nothing. -/
namespace StableNet.Wbft
open Chain List
variable {q n pr : ℕ} {msgs : List SignedRoundChangePayload} {proposal : Block}

/-- Drop every message whose source is in `seen` or repeats an earlier one. -/
def deduplicateFrom {α : Type} (source : α → Address) (seen : List Address) : List α → List α
  | [] => []
  | m::msgs =>
    if source m ∈ seen then deduplicateFrom source seen msgs
    else m::deduplicateFrom source (source m::seen) msgs

def deduplicateRoundChanges (msgs : List SignedRoundChangePayload) : List SignedRoundChangePayload :=
  deduplicateFrom (·.source) [] msgs

def deduplicatePrepares (msgs : List Prepare) : List Prepare := deduplicateFrom (·.source) [] msgs

/-- Nothing was prepared. -/
def SignedRoundChangePayload.isNil (m : SignedRoundChangePayload) : Bool :=
  (m.preparedRound=none ∨ m.preparedRound = some 0) ∧ m.preparedDigest = .zero

/-- The counting loop of `hasQuorumOfRoundChangeMessagesForNil`. -/
def countNil (quorumSize : ℕ) : ℕ → List SignedRoundChangePayload → Option String
  | _, [] => some "quorum of roundchange messages with nil prepared round not found"
  | nilCount, m::msgs =>
    if m.isNil then
      if nilCount+1 = quorumSize then none else countNil quorumSize (nilCount+1) msgs
    else countNil quorumSize nilCount msgs

def hasQuorumOfRoundChangeMessagesForNil (roundChangeMessages : List SignedRoundChangePayload)
    (quorumSize : ℕ) : Option String :=
  countNil quorumSize 0 roundChangeMessages

/-- A ROUND-CHANGE whose prepared round is nil or at most `preparedRound`. -/
def SignedRoundChangePayload.lowerOrEqual (preparedRound : ℕ) (m : SignedRoundChangePayload) : Bool :=
  match m.preparedRound with
  | none => true
  | some r => r ≤ preparedRound

/-- The counting loop of `hasQuorumOfRoundChangeMessagesForPreparedRoundAndBlock`. -/
def countPrepared (preparedRound : ℕ) (preparedHash : Hash) (quorumSize : ℕ) :
    ℕ → Bool → List SignedRoundChangePayload → Option String
  | _, _, [] => some "quorum of roundchange messages with prepared round and proposal not found"
  | count, hasMatch, m::msgs =>
    if m.lowerOrEqual preparedRound then
      let hasMatch := hasMatch ||
        (m.preparedRound = some preparedRound ∧ m.preparedDigest = preparedHash : Bool)
      if quorumSize ≤ count+1 ∧ hasMatch then none
      else countPrepared preparedRound preparedHash quorumSize (count+1) hasMatch msgs
    else countPrepared preparedRound preparedHash quorumSize count hasMatch msgs

def hasQuorumOfRoundChangeMessagesForPreparedRoundAndBlock
    (roundChangeMessages : List SignedRoundChangePayload) (preparedRound : ℕ)
    (preparedBlock : Block) (quorumSize : ℕ) : Option String :=
  countPrepared preparedRound preparedBlock.hash quorumSize 0 false roundChangeMessages

/-- The check of one PREPARE of a justification against the first one's round. -/
def checkJustificationPrepare (proposal : Block) (preparedRound : ℕ) (spp : Prepare) : Option String :=
  if preparedRound≠spp.round then some "prepare message round mismatch"
  else if proposal.hash≠spp.digest then some "prepare message digest mismatch"
  else none

def isJustified (proposal : Block) (targetView : View)
    (roundChangeMessages : List SignedRoundChangePayload) (prepareMessages : List Prepare)
    (quorumSize : ℕ) : Option String :=
  let dedupedRoundChanges := deduplicateRoundChanges roundChangeMessages
  let dedupedPrepares := deduplicatePrepares prepareMessages
  if dedupedRoundChanges.length<quorumSize then
    some "number of roundchange messages is less than required quorum of messages"
  else if dedupedRoundChanges.any (·.view ≠ targetView) then
    some "round-change message view does not match target view"
  else if dedupedPrepares.length≠0 ∧ dedupedPrepares.length<quorumSize then
    some "number of prepared messages is less than required quorum of messages"
  else match dedupedPrepares with
    | [] => hasQuorumOfRoundChangeMessagesForNil dedupedRoundChanges quorumSize
    | first::_ =>
      match dedupedPrepares.findSome? (checkJustificationPrepare proposal first.round) with
      | some err => some err
      | none => hasQuorumOfRoundChangeMessagesForPreparedRoundAndBlock dedupedRoundChanges
          first.round proposal quorumSize

/-- The check of one PREPARE against the prepared state a ROUND-CHANGE announces. -/
def checkMatchingPrepare (roundChange : RoundChange) (spp : Prepare) : Option String :=
  if spp.digest≠roundChange.preparedDigest then
    some "prepared message digest does not match roundchange prepared digest"
  else if some spp.round≠roundChange.preparedRound then
    some "round number in prepared message does not match prepared round in roundchange"
  else none

def hasMatchingRoundChangeAndPrepares (roundChange : RoundChange) (prepareMessages : List Prepare)
    (quorumSize : ℕ) : Option String :=
  let dedupedPrepares := deduplicatePrepares prepareMessages
  if dedupedPrepares.length<quorumSize then
    some "number of prepare messages is less than quorum of messages"
  else dedupedPrepares.findSome? (checkMatchingPrepare roundChange)

section Deduplicate

variable {α : Type} {source : α → Address} {seen : List Address} {msgs : List α}

lemma mem_of_mem_deduplicateFrom {m : α} (h : m ∈ deduplicateFrom source seen msgs) : m ∈ msgs ∧ source m ∉ seen := by
  induction msgs generalizing seen with
  | nil => simp [deduplicateFrom] at h
  | cons x xs ih =>
    unfold deduplicateFrom at h
    split at h
    · exact ⟨mem_cons_of_mem _ (ih h).1,(ih h).2⟩
    · rename_i hx
      rcases mem_cons.mp h with rfl | h
      · exact ⟨mem_cons_self,hx⟩
      · have := (ih h).2
        exact ⟨mem_cons_of_mem _ (ih h).1,fun hs => this (mem_cons_of_mem _ hs)⟩

lemma nodup_deduplicateFrom : ((deduplicateFrom source seen msgs).map source).Nodup := by
  induction msgs generalizing seen with
  | nil => simp [deduplicateFrom]
  | cons x xs ih =>
    unfold deduplicateFrom
    split
    · exact ih
    · rw [map_cons,nodup_cons]
      refine ⟨?_,ih⟩
      rintro hx
      obtain ⟨m,hm,heq⟩ := mem_map.mp hx
      exact (mem_of_mem_deduplicateFrom hm).2 (heq ▸ mem_cons_self)

end Deduplicate

/-- At least `q` of the messages, from distinct sources, have property `P`. -/
def QuorumOf {α : Type} (source : α → Address) (q : ℕ) (P : α → Prop) (msgs : List α) : Prop :=
  ∃ A : List α, A ⊆ msgs ∧ (A.map source).Nodup ∧ q ≤ A.length ∧ ∀ m ∈ A, P m

namespace QuorumOf

variable {α : Type} {source : α → Address} {P Q : α → Prop} {msgs : List α}

section
variable (h : QuorumOf source q P msgs)
include h

lemma mono (hPQ : ∀ m ∈ msgs, P m → Q m) : QuorumOf source q Q msgs := by
  obtain ⟨A,hA,hn,hq,hP⟩ := h
  exact ⟨A,hA,hn,hq,fun m hm => hPQ m (hA hm) (hP m hm)⟩

lemma of_le {q' : ℕ} (hle : q' ≤ q) : QuorumOf source q' P msgs := by
  obtain ⟨A,hA,hn,hq,hP⟩ := h
  exact ⟨A,hA,hn,hle.trans hq,hP⟩

lemma exists_finset : ∃ Q : Finset Address, q ≤ Q.card ∧ ∀ a ∈ Q, ∃ m ∈ msgs, source m=a ∧ P m := by
  obtain ⟨A,hA,hn,hq,hP⟩ := h
  refine ⟨(A.map source).toFinset,?_,?_⟩
  · rwa [toFinset_card_of_nodup hn,length_map]
  · intro a ha
    obtain ⟨m,hm,rfl⟩ := mem_map.mp (mem_toFinset.mp ha)
    exact ⟨m,hA hm,rfl,hP m hm⟩

end

lemma of_countP {p : α → Bool} (hn : (msgs.map source).Nodup) (hq : q ≤ msgs.countP p) :
    QuorumOf source q (fun m => p m=true) msgs :=
  ⟨msgs.filter p,filter_subset_self _,hn.sublist (filter_sublist.map source),
    by rwa [← countP_eq_length_filter],fun m hm => (mem_filter.mp hm).2⟩

lemma of_subset {msgs' : List α} (h : QuorumOf source q P msgs) (hsub : msgs ⊆ msgs') : QuorumOf source q P msgs' := by
  obtain ⟨A,hA,hrest⟩ := h
  exact ⟨A,List.Subset.trans hA hsub,hrest⟩

end QuorumOf

lemma countNil_eq_none (h : countNil q n msgs=none) : q ≤ n+msgs.countP SignedRoundChangePayload.isNil := by
  induction msgs generalizing n with
  | nil => simp [countNil] at h
  | cons m msgs ih =>
    unfold countNil at h
    split at h
    · rename_i hm
      rw [countP_cons_of_pos hm]
      split at h
      · omega
      · have := ih h
        omega
    · rename_i hm
      rw [countP_cons_of_neg hm]
      exact ih h

lemma countPrepared_eq_none {d : Hash} {b : Bool} (h : countPrepared pr d q n b msgs=none) :
    q ≤ n+msgs.countP (SignedRoundChangePayload.lowerOrEqual pr) := by
  induction msgs generalizing n b with
  | nil => simp [countPrepared] at h
  | cons m msgs ih =>
    unfold countPrepared at h
    split at h
    · rename_i hm
      rw [countP_cons_of_pos hm]
      dsimp only at h
      split at h
      · omega
      · have := ih h
        omega
    · rename_i hm
      rw [countP_cons_of_neg hm]
      exact ih h

lemma deduplicateRoundChanges_subset (msgs : List SignedRoundChangePayload) :
    deduplicateRoundChanges msgs ⊆ msgs := fun _ h => (mem_of_mem_deduplicateFrom h).1

lemma deduplicatePrepares_subset (msgs : List Prepare) : deduplicatePrepares msgs ⊆ msgs :=
  fun _ h => (mem_of_mem_deduplicateFrom h).1

lemma deduplicatePrepares_eq_nil {msgs : List Prepare} (h : deduplicatePrepares msgs = []) : msgs = [] := by
  cases msgs with
  | nil => rfl
  | cons m msgs => simp [deduplicatePrepares,deduplicateFrom] at h

lemma checkJustificationPrepare_eq_none {spp : Prepare}
    (h : checkJustificationPrepare proposal pr spp=none) : spp.round=pr ∧ spp.digest=proposal.hash := by
  unfold checkJustificationPrepare at h
  split at h
  · simp at h
  · split at h
    · simp at h
    · simp_all

/-- What an accepted justification contains: a quorum of ROUND-CHANGEs of the target view, either
all without prepared block and no PREPARE at all, or none above the round of a quorum of PREPAREs
for the proposal. -/
theorem isJustified_eq_none {v : View} {rcs : List SignedRoundChangePayload}
    {prepares : List Prepare} (h : isJustified proposal v rcs prepares q=none) :
    (prepares = [] ∧ QuorumOf (·.source) q (fun m => m.view=v ∧ m.isNil=true) rcs) ∨
    ∃ pr, QuorumOf (·.source) q (fun m => m.view=v ∧ m.lowerOrEqual pr=true) rcs ∧
      QuorumOf (·.source) q (fun m => m.round=pr ∧ m.digest=proposal.hash) prepares := by
  unfold isJustified at h
  dsimp only at h
  split at h
  · simp at h
  rename_i hlen
  split at h
  · simp at h
  rename_i hview
  split at h
  · simp at h
  rename_i hsize
  have hview' : ∀ m ∈ deduplicateRoundChanges rcs, m.view=v := by simpa using hview
  have hnodup : ((deduplicateRoundChanges rcs).map (·.source)).Nodup := nodup_deduplicateFrom
  -- a quorum counted among the deduplicated messages also has the target view
  have lift {p : SignedRoundChangePayload → Bool} (hq : q ≤ (deduplicateRoundChanges rcs).countP p) :
      QuorumOf (·.source) q (fun m => m.view=v ∧ p m=true) rcs :=
    ((QuorumOf.of_countP hnodup hq).mono fun m hm hp => ⟨hview' m hm,hp⟩).of_subset
      (deduplicateRoundChanges_subset rcs)
  split at h
  · rename_i hnil
    exact .inl ⟨deduplicatePrepares_eq_nil hnil,lift (by simpa using countNil_eq_none h)⟩
  · rename_i first rest hcons
    split at h
    · simp at h
    rename_i hall
    refine .inr ⟨first.round,lift (by simpa using countPrepared_eq_none h),?_⟩
    refine ⟨deduplicatePrepares prepares,deduplicatePrepares_subset _,nodup_deduplicateFrom,?_,?_⟩
    · by_contra hlt
      exact hsize ⟨by simp [hcons],by omega⟩
    · intro m hm
      exact checkJustificationPrepare_eq_none (List.findSome?_eq_none_iff.mp hall m hm)

end StableNet.Wbft
