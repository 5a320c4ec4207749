import StableNet.Wbft.Evidence

/-! Catching up with validators that have left for higher rounds. A core that learns of more than `F` of them moves to
the lowest of their rounds. -/
namespace StableNet.Wbft
open Chain List
open RoundChangeSet

namespace ValidatorSet

/-- `F`, a `float64` in the source. -/
def F (v : ValidatorSet) : ℚ := ((v.size : ℚ)-1)/3

lemma le_F_iff (v : ValidatorSet) (num : ℕ) : (num : ℚ) ≤ v.F ↔ 3*num<v.size := by
  unfold F
  rw [le_div_iff₀ (by norm_num),le_sub_iff_add_le,← Nat.succ_le_iff]
  constructor
  · intro h
    have : num*3+1 ≤ v.size := by exact_mod_cast h
    omega
  · intro h
    have : num*3+1 ≤ v.size := by omega
    exact_mod_cast this

/-- The window the source tests in floating point. -/
theorem reachesF1_iff (v : ValidatorSet) (num : ℕ) : v.reachesF1 num ↔ v.F<num ∧ (num : ℚ) ≤ v.F+1 := by
  rw [← not_le,le_F_iff,← sub_le_iff_le_add]
  have hsub : (num : ℚ)-1 ≤ v.F ↔ 3*num ≤ v.size+2 := by
    unfold F
    rw [le_div_iff₀ (by norm_num)]
    constructor
    · intro h
      have : (3*num : ℚ) ≤ v.size+2 := by linarith
      exact_mod_cast this
    · intro h
      have : (3*num : ℚ) ≤ v.size+2 := by exact_mod_cast h
      linarith
  rw [hsub]
  simp only [reachesF1,decide_eq_true_eq]
  omega

end ValidatorSet

namespace RoundChangeSet

section Above

variable {rcs rcs' : RoundChangeSet} {r r' k : ℕ} {a : Address}

lemma stored_of_mem {en : Sigma fun _ : ℕ => MsgSet RoundChange} (h : en ∈ rcs.roundChanges.entries) :
    rcs.stored en.1=en.2 := by
  unfold stored
  rw [AList.mem_lookup_iff.mpr h]
  rfl

lemma mem_roundChanges_of_stored (h : a ∈ rcs.stored k) : k ∈ rcs.roundChanges := by
  rw [← AList.lookup_isSome]
  unfold stored at h
  cases hl : rcs.roundChanges.lookup k with
  | none =>
    rw [hl] at h
    exact absurd h (AList.notMem_empty a)
  | some ms => rfl

lemma mem_entries_stored (h : k ∈ rcs.roundChanges) : ⟨k,rcs.stored k⟩ ∈ rcs.roundChanges.entries := by
  obtain ⟨ms,hms⟩ := Option.isSome_iff_exists.mp (AList.lookup_isSome.mpr h)
  unfold stored
  rw [hms]
  exact AList.mem_lookup_iff.mp hms

lemma mem_higherRoundSources : a ∈ rcs.higherRoundSources r ↔ ∃ k, uint64 r<k ∧ a ∈ rcs.stored k := by
  simp only [higherRoundSources,mem_dedup,mem_flatMap,mem_filter,decide_eq_true_eq]
  constructor
  · rintro ⟨en,⟨hen,hlt⟩,ha⟩
    refine ⟨en.1,hlt,?_⟩
    rw [stored_of_mem hen]
    exact ha
  · rintro ⟨k,hlt,ha⟩
    exact ⟨⟨k,rcs.stored k⟩,⟨mem_entries_stored (mem_roundChanges_of_stored ha),hlt⟩,ha⟩

lemma higherRoundMessages_le (h : rcs'.higherRoundSources r' ⊆ rcs.higherRoundSources r) :
    rcs'.higherRoundMessages r' ≤ rcs.higherRoundMessages r := (nodup_dedup _).length_le_of_subset h

lemma higherRoundMessages_le_succ (h : rcs'.higherRoundSources r' ⊆ a::rcs.higherRoundSources r) :
    rcs'.higherRoundMessages r' ≤ rcs.higherRoundMessages r+1 := (nodup_dedup _).length_le_of_subset h

lemma higherRoundMessages_lt (h : rcs'.higherRoundSources r' ⊆ rcs.higherRoundSources r)
    (ha : a ∈ rcs.higherRoundSources r) (ha' : a ∉ rcs'.higherRoundSources r') :
    rcs'.higherRoundMessages r'<rcs.higherRoundMessages r := by
  have hn : (a::rcs'.higherRoundSources r').Nodup := nodup_cons.mpr ⟨ha',nodup_dedup _⟩
  exact hn.length_le_of_subset (cons_subset.mpr ⟨ha,h⟩)

lemma exists_sources (rcs : RoundChangeSet) (r : ℕ) : ∃ s : Finset Address,
    s.card = rcs.higherRoundMessages r ∧ ∀ x ∈ s, ∃ k, uint64 r<k ∧ x ∈ rcs.stored k :=
  ⟨(rcs.higherRoundSources r).toFinset,toFinset_card_of_nodup (nodup_dedup _),
    fun _ hx => mem_higherRoundSources.mp (mem_toFinset.mp hx)⟩

lemma uint64_of_small (h : r<2^63) : uint64 r=r := uint64_of_lt (h.trans (by norm_num))

/-- The rounds known above a round have messages and are positive as an `int`. -/
structure Known (rcs : RoundChangeSet) (r : ℕ) : Prop where
  small : ∀ k ∈ rcs.roundChanges, r<k → k<2^63
  filled : ∀ k ∈ rcs.roundChanges, r<k → ∃ a, a ∈ rcs.stored k

lemma Known.getMinRoundChange_eq (h : rcs.Known r) (hr : r<2^63) (hk : k ∈ rcs.roundChanges)
    (hlt : r<k) (hmin : ∀ k' ∈ rcs.roundChanges, r<k' → k ≤ k') : rcs.getMinRoundChange r=k := by
  have htoInt {k' : ℕ} (hk' : k' ∈ rcs.roundChanges) (hlt' : r<k') : toInt k'=k' :=
    if_pos (h.small k' hk' hlt')
  have hfirst : (rcs.higherRounds r).min? = some (k : ℤ) := by
    rw [List.min?_eq_some_iff]
    unfold higherRounds
    rw [uint64_of_small hr]
    constructor
    · refine mem_map.mpr ⟨⟨k,rcs.stored k⟩,mem_filter.mpr ⟨mem_entries_stored hk,?_⟩,htoInt hk hlt⟩
      simpa using hlt
    · intro x hx
      obtain ⟨en,hen,rfl⟩ := mem_map.mp hx
      obtain ⟨hen,hlt'⟩ := mem_filter.mp hen
      have hmem : en.1 ∈ rcs.roundChanges := mem_keys_of_mem hen
      rw [htoInt hmem (by simpa using hlt')]
      exact_mod_cast hmin _ hmem (by simpa using hlt')
  rw [getMinRoundChange,hfirst]
  rfl

lemma mem_newRound : k ∈ (rcs.newRound r).roundChanges ↔ k = uint64 r ∨ k ∈ rcs.roundChanges := by
  unfold newRound
  dsimp only
  split
  · rename_i hsome
    rw [AList.lookup_isSome] at hsome
    refine (or_iff_right_of_imp ?_).symm
    rintro rfl
    exact hsome
  · exact AList.mem_insert _

lemma mem_clearLowerThan (h : k ∈ (rcs.clearLowerThan r).roundChanges) :
    k ∈ rcs.roundChanges ∧ (rcs.clearLowerThan r).stored k = rcs.stored k := by
  rw [← AList.lookup_isSome] at h ⊢
  unfold stored clearLowerThan at *
  dsimp only at *
  rw [lookup_foldl_erase] at *
  split at h
  · simp at h
  · rename_i halive
    rw [if_neg halive]
    exact ⟨h,rfl⟩

theorem mem_stored_of_later (h : a ∈ ((rcs.clearLowerThan r').newRound r').stored k) : a ∈ rcs.stored k := by
  rw [stored_newRound] at h
  rcases rcs.clearLowerThan_cases r' k with ⟨hempty,_⟩ | ⟨hsame,_⟩
  · rw [hempty] at h
    exact absurd h (AList.notMem_empty a)
  · rwa [hsame] at h

lemma Known.later (h : rcs.Known r) (hlt : r<r') (hr' : r'<2^63) : ((rcs.clearLowerThan r').newRound r').Known r' := by
  have hold {k : ℕ} (hk : k ∈ ((rcs.clearLowerThan r').newRound r').roundChanges) (hk' : r'<k) :
      k ∈ rcs.roundChanges ∧ (rcs.clearLowerThan r').stored k = rcs.stored k := by
    refine mem_clearLowerThan ((mem_newRound.mp hk).resolve_left ?_)
    rw [uint64_of_small hr']
    omega
  refine ⟨fun k hk hk' => h.small k (hold hk hk').1 (by omega),fun k hk hk' => ?_⟩
  obtain ⟨hmem,hsame⟩ := hold hk hk'
  rw [stored_newRound,hsame]
  exact h.filled k hmem (by omega)

lemma sources_later (hr : r<2^63) (hlt : r<r') (hr' : r'<2^63) :
    ((rcs.clearLowerThan r').newRound r').higherRoundSources r' ⊆ rcs.higherRoundSources r := by
  intro a ha
  rw [mem_higherRoundSources,uint64_of_small hr'] at ha
  obtain ⟨k,hk,ha⟩ := ha
  rw [mem_higherRoundSources,uint64_of_small hr]
  exact ⟨k,by omega,mem_stored_of_later ha⟩

lemma higherRoundMessages_later (rcs : RoundChangeSet) (hr : r<2^63) (hlt : r<r') (hr' : r'<2^63) :
    ((rcs.clearLowerThan r').newRound r').higherRoundMessages r' ≤ rcs.higherRoundMessages r :=
  higherRoundMessages_le (sources_later hr hlt hr')

lemma known_newRoundChangeSet (v : ValidatorSet) : ((newRoundChangeSet v).newRound 0).Known 0 ∧
      ((newRoundChangeSet v).newRound 0).higherRoundMessages 0=0 := by
  have hknown (k : ℕ) (hk : k ∈ ((newRoundChangeSet v).newRound 0).roundChanges) : k=0 := by
    have hzero := (mem_newRound (r := 0)).mp hk
    simpa [newRoundChangeSet,uint64,AList.notMem_empty] using hzero
  refine ⟨⟨fun k hk hlt => absurd (hknown k hk) hlt.ne',fun k hk hlt => absurd (hknown k hk) hlt.ne'⟩,?_⟩
  refine length_eq_zero_iff.mpr (eq_nil_iff_forall_not_mem.mpr fun a ha => ?_)
  obtain ⟨k,_,hk⟩ := mem_higherRoundSources.mp ha
  rw [stored_newRound] at hk
  exact AList.notMem_empty a hk

variable {m : RoundChange}

/-- A validator has left for a round, by a stored ROUND-CHANGE or the given one. -/
def Left (rcs : RoundChangeSet) (m : RoundChange) (a : Address) (k : ℕ) : Prop :=
  a ∈ rcs.stored k ∨ a=m.source ∧ k = uint64 m.round

instance (rcs : RoundChangeSet) (m : RoundChange) (a : Address) (k : ℕ) : Decidable (rcs.Left m a k) :=
  inferInstanceAs (Decidable (_ ∨ _))

def rounds (rcs : RoundChangeSet) (m : RoundChange) : List ℕ := uint64 m.round::rcs.roundChanges.keys

/-- Some validator has left for a round and for no higher one. -/
def LastRound (rcs : RoundChangeSet) (m : RoundChange) (k : ℕ) : Prop :=
  ∃ a ∈ m.source::(rcs.stored k).keys, rcs.Left m a k ∧ ∀ k' ∈ rcs.rounds m, k<k' → ¬ rcs.Left m a k'

-- there are only finitely many addresses, and the search must not be through all of them
instance (rcs : RoundChangeSet) (m : RoundChange) (k : ℕ) : Decidable (rcs.LastRound m k) :=
  List.decidableBEx _ _

/-- Some validator has left a round for the lowest one above it only. -/
def Straggler (rcs : RoundChangeSet) (m : RoundChange) (r : ℕ) : Prop :=
  ∃ k ∈ rcs.rounds m, r<k ∧ (∀ k' ∈ rcs.rounds m, r<k' → k ≤ k') ∧ rcs.LastRound m k

instance (rcs : RoundChangeSet) (m : RoundChange) (r : ℕ) : Decidable (rcs.Straggler m r) :=
  inferInstanceAs (Decidable (∃ _ ∈ _, _))

structure Filed (rcs : RoundChangeSet) (m : RoundChange) (rcs' : RoundChangeSet) : Prop where
  known : ∀ k, k ∈ rcs'.roundChanges ↔ k ∈ rcs.rounds m
  left : ∀ a k, a ∈ rcs'.stored k ↔ rcs.Left m a k

lemma filed_file : rcs.Filed m (rcs.file (uint64 m.round) m) := by
  refine ⟨fun k => ?_,fun a k => ?_⟩
  · exact (AList.mem_insert _).trans mem_cons.symm
  · rw [stored_file,Left]
    split
    · rename_i hk
      subst hk
      rw [MsgSet.add,AList.mem_insert,or_comm,and_iff_left rfl]
    · rename_i hk
      simp [hk]

lemma filed_add (prepared : Option (ℕ × Block)) (ps : List Prepare) (q : ℕ) :
    rcs.Filed m (rcs.add m.round m prepared ps q) := by
  rcases rcs.add_cases m.round m prepared ps q with heq | ⟨pr,pb,_,_,heq⟩
  · rw [heq]
    exact filed_file
  · rw [heq]
    exact ⟨filed_file.known,filed_file.left⟩

lemma Known.filed (h : rcs.Known r) (hm : m.round<2^63) (hfiled : rcs.Filed m rcs') : rcs'.Known r := by
  refine ⟨fun k hk hlt => ?_,fun k hk hlt => ?_⟩
  · rcases mem_cons.mp ((hfiled.known k).mp hk) with rfl | hk
    · rwa [uint64_of_small hm]
    · exact h.small k hk hlt
  · rcases mem_cons.mp ((hfiled.known k).mp hk) with rfl | hk
    · exact ⟨m.source,(hfiled.left _ _).mpr (.inr ⟨rfl,rfl⟩)⟩
    · obtain ⟨a,ha⟩ := h.filled k hk hlt
      exact ⟨a,(hfiled.left a k).mpr (.inl ha)⟩

lemma sources_filed (hfiled : rcs.Filed m rcs') : rcs'.higherRoundSources r ⊆ m.source::rcs.higherRoundSources r := by
  intro a ha
  obtain ⟨k,hk,ha⟩ := mem_higherRoundSources.mp ha
  rcases (hfiled.left a k).mp ha with ha | ⟨rfl,_⟩
  · exact mem_cons_of_mem _ (mem_higherRoundSources.mpr ⟨k,hk,ha⟩)
  · exact mem_cons_self

theorem sources_filed_self (hfiled : rcs.Filed m rcs') (hm : m.round=r) :
    rcs'.higherRoundSources r ⊆ rcs.higherRoundSources r := by
  intro a ha
  obtain ⟨k,hk,ha⟩ := mem_higherRoundSources.mp ha
  rcases (hfiled.left a k).mp ha with ha | ⟨_,rfl⟩
  · exact mem_higherRoundSources.mpr ⟨k,hk,ha⟩
  · rw [hm] at hk
    exact absurd hk (lt_irrefl _)

/-- Moving to the lowest round above leaves the straggler behind. -/
theorem Straggler.jump (h : rcs.Straggler m r) (hfiled : rcs.Filed m rcs') (hknown : rcs'.Known r)
    (hr : r<2^63) : ∃ k, r<k ∧ k<2^63 ∧ rcs'.getMinRoundChange r=k ∧
      ((rcs'.clearLowerThan k).newRound k).higherRoundMessages k<rcs'.higherRoundMessages r := by
  obtain ⟨k,hk,hlt,hmin,a,_,ha,hlast⟩ := h
  have hmem := (hfiled.known k).mpr hk
  have hsmall := hknown.small k hmem hlt
  refine ⟨k,hlt,hsmall,?_,?_⟩
  · exact hknown.getMinRoundChange_eq hr hmem hlt fun k' hk' => hmin k' ((hfiled.known k').mp hk')
  refine higherRoundMessages_lt (a := a) (sources_later hr hlt hsmall) ?_ fun hin => ?_
  · rw [mem_higherRoundSources,uint64_of_small hr]
    exact ⟨k,hlt,(hfiled.left a k).mpr ha⟩
  · rw [mem_higherRoundSources,uint64_of_small hsmall] at hin
    obtain ⟨k',hk',hin⟩ := hin
    have hstored := mem_stored_of_later hin
    exact hlast k' ((hfiled.known k').mp (mem_roundChanges_of_stored hstored)) hk'
      ((hfiled.left a k').mp hstored)

end Above

end RoundChangeSet

namespace Core

/-- A core has caught up: no more than `F` validators are known to be above its round. -/
structure Caught (c : Core) : Prop where
  round : c.current.round<2^63
  known : c.roundChangeSet.Known c.current.round
  few : c.roundChangeSet.higherRoundMessages c.current.round=0 ∨
    3*c.roundChangeSet.higherRoundMessages c.current.round<c.valSet.size

section Caught

variable {b : Backend} {e : Event} {c c' : Core}

lemma Caught.keep (h : c.Caught) (hset : c'.roundChangeSet=c.roundChangeSet)
    (hround : c'.current.round=c.current.round) (hval : c'.valSet.validators=c.valSet.validators) : c'.Caught := by
  have hsize : c'.valSet.size=c.valSet.size := by
    unfold ValidatorSet.size
    rw [hval]
  refine ⟨?_,?_,?_⟩ <;> rw [hround]
  · exact h.round
  · rw [hset]
    exact h.known
  · rw [hset,hsize]
    exact h.few

lemma Caught.broadcastRoundChange (h : c.Caught) (r : ℤ) : (c.broadcastRoundChange r).Caught := by
  unfold Core.broadcastRoundChange
  dsimp only
  split <;> exact h.keep rfl rfl rfl

lemma Caught.proposeForRound (h : c.Caught) : c.proposeForRound.1.Caught := by
  unfold Core.proposeForRound
  split
  · exact h
  dsimp only
  split
  · exact h
  · unfold sendPreprepareMsg
    split <;> exact h.keep rfl rfl rfl

lemma startNewRound_later {r : ℕ} (hhead : b.lastProposal.number+1 = c.current.sequence)
    (hlt : c.current.round<r) (hr : r<2^63) : (c.startNewRound b r).current.round = r ∧
      (c.startNewRound b r).roundChangeSet = (c.roundChangeSet.clearLowerThan r).newRound r ∧
      (c.startNewRound b r).valSet.validators = c.valSet.validators := by
  have hset : (c.changeRound b r).roundChangeSet = c.roundChangeSet := by
    unfold Core.changeRound discardBadLock
    split <;> rfl
  have hne : uint64 r≠0 := by
    rw [uint64_of_small hr]
    omega
  unfold startNewRound
  rw [if_neg (by omega),if_pos hhead,if_neg (by omega),if_neg (by omega),Int.toNat_natCast]
  refine ⟨?_,?_,?_⟩
  · rw [enterRound_current]
    rfl
  · rw [← hset]
    exact ((enterRound_roundChangeSet b _ r).resolve_left fun h => hne h.1).2
  · exact (enterRound_frame b _ r).validators.trans (discardBadLock_frame b c).validators

theorem caught_startNewRound {r : ℕ} (hknown : c.roundChangeSet.Known c.current.round)
    (hhead : b.lastProposal.number+1 = c.current.sequence) (hlt : c.current.round<r) (hr : r<2^63)
    (hfew : ((c.roundChangeSet.clearLowerThan r).newRound r).higherRoundMessages r=0 ∨
      3*((c.roundChangeSet.clearLowerThan r).newRound r).higherRoundMessages r<c.valSet.size) :
    (c.startNewRound b r).Caught := by
  obtain ⟨hround,hset,hval⟩ := startNewRound_later hhead hlt hr
  have hsize : (c.startNewRound b r).valSet.size = c.valSet.size := by
    unfold ValidatorSet.size
    rw [hval]
  refine ⟨?_,?_,?_⟩ <;> rw [hround]
  · exact hr
  · rw [hset]
    exact hknown.later hlt hr
  · rw [hset,hsize]
    exact hfew

lemma Caught.handleTimeoutMsg (h : c.Caught) (hhead : b.lastProposal.number+1 = c.current.sequence)
    (hr : c.current.round+1<2^63) : (c.handleTimeoutMsg b).Caught := by
  refine Caught.broadcastRoundChange (caught_startNewRound (r := c.current.round+1) h.known hhead (by omega) hr ?_) _
  have hlt : c.current.round<c.current.round+1 := Nat.lt_succ_self _
  have hle := c.roundChangeSet.higherRoundMessages_later h.round hlt hr
  have hfew := h.few
  omega

lemma filed_addRoundChange {m : RoundChange} (h : c.addRoundChange m = some c') : m.round<c.current.round ∧ c'=c ∨
    c.current.round ≤ m.round ∧ ∃ rcs, c.roundChangeSet.Filed m rcs ∧ c' = { c with roundChangeSet := rcs } := by
  unfold addRoundChange at h
  split at h
  · exact .inl ⟨‹_›,(Option.some.inj h).symm⟩
  · refine .inr ⟨by omega,?_⟩
    split at h
    · exact ⟨_,filed_add _ _ _,(Option.some.inj h).symm⟩
    · split at h
      · simp at h
      · exact ⟨_,filed_add _ _ _,(Option.some.inj h).symm⟩

/-- What happens once a ROUND-CHANGE is stored. -/
def afterRoundChange (b : Backend) (c : Core) : Core :=
  if c.valSet.reachesF1 (c.roundChangeSet.higherRoundMessages c.current.round) then
    (c.startNewRound b (c.roundChangeSet.getMinRoundChange c.current.round)).broadcastRoundChange
      (c.roundChangeSet.getMinRoundChange c.current.round)
  else if c.valSet.quorumSize ≤ c.roundChangeSet.getRCMessagesForGivenRound c.current.round ∧
      c.valSet.isProposer c.address ∧ c.current.preprepareSent<c.current.round then c.proposeForRound.1
  else c

lemma handleRoundChangeMsg_eq (m : RoundChange) : (c.handleRoundChangeMsg b m).1 = match c.addRoundChange m with
    | none => c
    | some c' => c'.afterRoundChange b := by
  unfold handleRoundChangeMsg
  cases c.addRoundChange m with
  | none => rfl
  | some c' =>
    dsimp only
    unfold afterRoundChange
    split
    · rfl
    · split <;> rfl

lemma caught_afterRoundChange (h : c.Caught)
    (hnum : ¬ c.valSet.reachesF1 (c.roundChangeSet.higherRoundMessages c.current.round)) :
    (c.afterRoundChange b).Caught := by
  unfold afterRoundChange
  rw [if_neg hnum]
  split
  · exact h.proposeForRound
  · exact h

lemma caught_of_jump {k : ℕ} (hknown : c.roundChangeSet.Known c.current.round)
    (hhead : b.lastProposal.number+1 = c.current.sequence) (hlt : c.current.round<k) (hk : k<2^63)
    (hnum : c.valSet.reachesF1 (c.roundChangeSet.higherRoundMessages c.current.round))
    (hmin : c.roundChangeSet.getMinRoundChange c.current.round=k)
    (hfewer : ((c.roundChangeSet.clearLowerThan k).newRound k).higherRoundMessages k <
      c.roundChangeSet.higherRoundMessages c.current.round) : (c.afterRoundChange b).Caught := by
  unfold afterRoundChange
  rw [if_pos hnum,hmin]
  simp only [ValidatorSet.reachesF1,decide_eq_true_eq] at hnum
  exact Caught.broadcastRoundChange (caught_startNewRound hknown hhead hlt hk (by omega)) _

lemma Caught.not_reachesF1 (h : c.Caught) (hsize : c.valSet.size≠0) :
    ¬ c.valSet.reachesF1 (c.roundChangeSet.higherRoundMessages c.current.round) := by
  have := h.few
  simp only [ValidatorSet.reachesF1,decide_eq_true_eq]
  omega

/-- A core still has caught up after a ROUND-CHANGE, provided a straggler is left behind if this is
one for a higher round. -/
theorem Caught.handleRoundChangeMsg (h : c.Caught) {m : RoundChange} (hsize : c.valSet.size≠0)
    (hhead : b.lastProposal.number+1 = c.current.sequence) (hm : m.round<2^63)
    (hleft : c.current.round < m.round → c.roundChangeSet.Straggler m c.current.round) :
    (c.handleRoundChangeMsg b m).1.Caught := by
  rw [handleRoundChangeMsg_eq]
  cases hadd : c.addRoundChange m with
  | none => exact h
  | some c' =>
    rcases filed_addRoundChange hadd with ⟨_,rfl⟩ | ⟨hle,rcs,hfiled,rfl⟩
    · exact caught_afterRoundChange h (h.not_reachesF1 hsize)
    have hknown : rcs.Known c.current.round := h.known.filed hm hfiled
    by_cases hsame : m.round=c.current.round
    · have hnum := higherRoundMessages_le (sources_filed_self hfiled hsame)
      have hfew := h.few
      have hc' : Caught { c with roundChangeSet := rcs } := ⟨h.round,hknown,by dsimp only; omega⟩
      exact caught_afterRoundChange hc' (hc'.not_reachesF1 hsize)
    have hnum := higherRoundMessages_le_succ
      (sources_filed (r := c.current.round) hfiled)
    have hfew := h.few
    by_cases hF1 : c.valSet.reachesF1 (rcs.higherRoundMessages c.current.round)
    · obtain ⟨k,hlt,hk,hmin,hfewer⟩ := (hleft (by omega)).jump hfiled hknown h.round
      exact caught_of_jump hknown hhead hlt hk hF1 hmin hfewer
    · refine caught_afterRoundChange ⟨h.round,hknown,?_⟩ hF1
      simp only [ValidatorSet.reachesF1,decide_eq_true_eq] at hF1
      dsimp only
      omega

theorem handleEvent_of_movesRound (h : e.movesRound=true) :
    e = .timeout ∨ c.handleEvent b e=c ∨ ∃ m, c.brought e = some (.roundChange m) ∧
      c.handleEvent b e = (c.handleDecodedMessage b (.roundChange m)).1 := by
  cases e with
  | timeout => exact .inl rfl
  | message m =>
    right
    simp only [handleEvent,handleEncodedMsg,brought]
    split
    · exact .inl rfl
    · rename_i hdecodes
      rw [if_pos (by simpa using hdecodes)]
      cases hm' : m.verifySignatures c.validateFn with
      | none => exact .inl rfl
      | some m' =>
        have hcode : m'.code = .roundChange := by
          rw [Message.verifySignatures_code hm']
          simpa [Event.movesRound] using h
        cases m' with
        | roundChange m' => exact .inr ⟨m',rfl,rfl⟩
        | preprepare m' | prepare m' | commit m' => simp [Message.code] at hcode
  | backlog m =>
    cases m with
    | roundChange m => exact .inr (.inr ⟨m,rfl,rfl⟩)
    | preprepare m | prepare m | commit m => simp [Event.movesRound,Message.code] at h
  | request | finalCommitted | retryTimeout | fireRetryTimer | fireFuturePreprepareTimer =>
    simp [Event.movesRound] at h

lemma Caught.handleDecodedMessage (h : c.Caught) {m : RoundChange} (hvouched : c.Vouched (.roundChange m))
    (hhead : b.lastProposal.number+1 = c.current.sequence) (hround : c.current.round+roundThreshold<2^63)
    (hleft : m.sequence=c.current.sequence → c.current.round < m.round →
      c.roundChangeSet.Straggler m c.current.round) : (c.handleDecodedMessage b (.roundChange m)).1.Caught := by
  unfold Core.handleDecodedMessage
  split
  · rename_i hcheck
    have hsize := ValidatorSet.size_ne_zero_of_members ⟨_,hvouched (window_of_checkMessage (.inl hcheck)).1⟩
    have hseq := sequence_of_checkMessage_roundChange hcheck
    have hnear : ¬ c.isTooFarFutureMessage (Message.roundChange m).view := by
      intro hfar
      unfold checkMessage at hcheck
      rw [if_pos hfar] at hcheck
      simp at hcheck
    have hle : m.round ≤ c.current.round+roundThreshold := (near_of_not_tooFar hnear).2 hseq
    exact h.handleRoundChangeMsg hsize hhead (by omega) (hleft hseq)
  · exact h.keep rfl rfl rfl
  · obtain ⟨p,q,heq⟩ := addToExtraSeal_eq c (.roundChange m)
    rw [heq]
    exact h.keep rfl rfl rfl
  · exact h

theorem Recounts.caught {c₀ : Core} (hrec : Recounts e c₀ c c') (hmoves : e.movesRound=false)
    (h : c.Caught) : c'.Caught := by
  cases hrec with
  | keep hset hround hval => exact h.keep hset hround hval
  | file m _ hbrought => simp [movesRound_of_brought hbrought rfl] at hmoves
  | changeRound r _ hmoves' => simp [hmoves'] at hmoves
  | changeSequence v hround hset =>
    obtain ⟨hknown,hnone⟩ := known_newRoundChangeSet v
    refine ⟨?_,?_,?_⟩ <;> rw [hround]
    · norm_num
    · rw [hset]
      exact hknown
    · rw [hset]
      exact .inl hnone

end Caught

end Core

namespace Net

variable {cfg : Config} {backends : Address → Backend} {net : Net} {i : Input}

/-- An input is paced if rounds are low enough, are changed on the head just below the sequence, and
a ROUND-CHANGE for a higher round finds or is a straggler. -/
structure Paced (net : Net) (i : Input) : Prop where
  round : (net.cores i.node).current.round+Core.roundThreshold<2^63
  head : i.event.movesRound=true →
    i.backend.lastProposal.number+1 = (net.cores i.node).current.sequence
  straggler : ∀ m ∈ ((net.cores i.node).receive i.event).broughtRoundChange i.event,
    m.sequence = (net.cores i.node).current.sequence → (net.cores i.node).current.round < m.round →
      (net.cores i.node).roundChangeSet.Straggler m (net.cores i.node).current.round

instance (net : Net) (i : Input) : Decidable (net.Paced i) :=
  decidable_of_iff (_ ∧ (_ → _) ∧ ∀ m ∈ ((net.cores i.node).receive i.event).broughtRoundChange i.event, _ → _ → _)
    ⟨fun h => ⟨h.1,h.2.1,h.2.2⟩,fun h => ⟨h.1,h.2,h.3⟩⟩

lemma vouched_of_brought {m : Message} (hfiled : (net.cores i.node).Filed) (hen : net.Enabled cfg i)
    (h : ((net.cores i.node).receive i.event).brought i.event = some m) :
    ((net.cores i.node).receive i.event).Vouched m := by
  rcases Core.brought_eq_some h with he | ⟨m₀,_,hm⟩
  · have hev := hen.2
    rw [he] at hev
    exact (hfiled.due m (.inl hev)).2
  · exact Core.vouched_of_verifySignatures hm

lemma caught_coreAfter {ok : Net → Input → Prop} (h : net.Reachable cfg backends ok) (hen : net.Enabled cfg i)
    (hpaced : net.Paced i) (hc : (net.cores i.node).Caught) : (net.coreAfter i).Caught := by
  have hrec : ((net.cores i.node).receive i.event).Caught := ⟨hc.round,hc.known,hc.few⟩
  cases hmoves : i.event.movesRound with
  | false =>
    exact h.recounts hen (fun ht => by simp [hmoves] at ht) (fun c c' hc hr => hr.caught hmoves hc) hrec
  | true =>
    have hhead := hpaced.head hmoves
    have hround := hpaced.round
    unfold coreAfter
    rcases Core.handleEvent_of_movesRound (b := i.backend) (c := (net.cores i.node).receive i.event) hmoves with
      he | hsame | ⟨m,hbrought,heq⟩
    · rw [he]
      rw [he] at hrec
      exact hrec.handleTimeoutMsg hhead (show (net.cores i.node).current.round+1<2^63 by
        unfold Core.roundThreshold at hround; omega)
    · rw [hsame]
      exact hrec
    · rw [heq]
      exact hrec.handleDecodedMessage (vouched_of_brought (h.filed _) hen hbrought) hhead hround
        (hpaced.straggler m (Core.mem_broughtRoundChange hbrought))

lemma caught_of_paced (h : net.Reachable cfg backends Paced) (a : Address) : (net.cores a).Caught := by
  induction h generalizing a with
  | init =>
    obtain ⟨v,hset⟩ := ((Core.enterRound_roundChangeSet (backends a) _ 0).resolve_right fun h => h.1 rfl).2
    have hround : ((Net.init cfg backends).cores a).current.round=0 :=
      congrArg RoundState.round (Core.enterRound_current (backends a) _ 0)
    obtain ⟨hknown,hnone⟩ := known_newRoundChangeSet v
    refine ⟨?_,?_,.inl ?_⟩ <;> rw [hround]
    · norm_num
    · rw [show ((Net.init cfg backends).cores a).roundChangeSet = _ from hset]
      exact hknown
    · rw [show ((Net.init cfg backends).cores a).roundChangeSet = _ from hset]
      exact hnone
  | @step net i hreach hen hok ih =>
    exact forall_cores_next (P := fun _ c => c.Caught) (caught_coreAfter hreach hen hok (ih i.node))
      (fun a _ => ih a) a

/-- In every run in which each ROUND-CHANGE for a higher round finds or is a straggler, a core never
knows of `F + 1` or more validators above its round, and never of more than `F` if of any. -/
theorem catches_up (h : net.Reachable cfg backends Paced) (a : Address) (s : Finset Address)
    (hs : ∀ x ∈ s, ∃ k, (net.cores a).current.round<k ∧ x ∈ (net.cores a).roundChangeSet.stored k) :
    (s.card : ℚ)<(net.cores a).valSet.F+1 ∧ (s.Nonempty → (s.card : ℚ) ≤ (net.cores a).valSet.F) := by
  have hc := caught_of_paced h a
  have hcard : s.card ≤ (net.cores a).roundChangeSet.higherRoundMessages (net.cores a).current.round := by
    rw [← Finset.length_toList]
    refine s.nodup_toList.length_le_of_subset fun x hx => ?_
    rw [mem_higherRoundSources,uint64_of_small hc.round]
    exact hs x (Finset.mem_toList.mp hx)
  have hfew := hc.few
  have hle (hpos : s.card≠0) : (s.card : ℚ) ≤ (net.cores a).valSet.F := by
    rw [ValidatorSet.le_F_iff]
    omega
  refine ⟨?_,fun hne => hle hne.card_pos.ne'⟩
  by_cases hpos : s.card=0
  · rw [hpos,ValidatorSet.F]
    have : (0 : ℚ) ≤ (net.cores a).valSet.size := Nat.cast_nonneg _
    push_cast
    linarith
  · exact (hle hpos).trans_lt (lt_add_one _)

end Net

/-! ### A core that stays behind

All four validators are honest. Validators 2, 3 and 4 time out twice in sequence 1. -/

namespace StaysBehind
open FourValidators

def everyone : Config := ⟨[(1,11),(2,12),(3,13),(4,14)]⟩

def leaves (a : Address) (round : ℕ) : Message := .roundChange
  { sequence := 1, round, source := a, signature := ⟨a,.roundChange 1 round none⟩
    preparedRound := none, preparedDigest := .zero, preparedBlock := none, justification := [] }

def timeouts : List (Address × Event) := [2,3,4].flatMap fun a => [(a,.timeout),(a,.timeout)]

/-- Validator 1 follows validators 2 and 3 to round 1, and finds none above it. -/
theorem follows_to_round_1 : ∃ net : Net, (net.cores 1).current.round=1 ∧ ∀ s : Finset Address,
      (∀ x ∈ s, ∃ k, (net.cores 1).current.round<k ∧ x ∈ (net.cores 1).roundChangeSet.stored k) →
      (s.card : ℚ)<(net.cores 1).valSet.F+1 := by
  obtain ⟨net,hreach,hround⟩ := Net.exists_reachable_of_run everyone (fun _ => backend genesis)
    Net.Paced Net.Paced (inputs genesis (timeouts++deliver [1] [leaves 2 1,leaves 3 1]))
    (fun _ _ _ h => h) (fun net => (net.cores 1).current.round=1) (by decide +kernel)
  exact ⟨net,hround,fun s hs => (Net.catches_up hreach 1 s hs).1⟩

/-- Validator 1 learns of validator 2 in rounds 1 and 2, and follows it to round 1 once it learns of
validator 3 in round 2. Then all others are known to be in round 2, but they are too many for the test. -/
theorem stays_in_round_1 : ∃ net : Net, net.Reachable everyone (fun _ => backend genesis) (fun _ _ => True) ∧
    (net.cores 1).valSet.F=1 ∧ (net.cores 1).current.round=1 ∧ ∃ s : Finset Address, s.card=3 ∧
      ∀ x ∈ s, ∃ k, (net.cores 1).current.round<k ∧ x ∈ (net.cores 1).roundChangeSet.stored k := by
  obtain ⟨net,hreach,hround,hsize,hnum⟩ := Net.exists_reachable_of_run everyone (fun _ => backend genesis)
    (fun _ _ => True) (fun _ _ => True)
    (inputs genesis (timeouts++deliver [1] [leaves 2 1,leaves 2 2,leaves 3 2,leaves 4 2]))
    (fun _ _ _ h => h)
    (fun net => (net.cores 1).current.round=1 ∧ (net.cores 1).valSet.size = 4 ∧
      (net.cores 1).roundChangeSet.higherRoundMessages 1 = 3) (by decide +kernel)
  obtain ⟨s,hcard,hs⟩ := (net.cores 1).roundChangeSet.exists_sources 1
  refine ⟨net,hreach,?_,hround,s,hcard.trans hnum,?_⟩
  · rw [ValidatorSet.F,hsize]
    norm_num
  · rw [hround]
    exact hs

end StaysBehind

end StableNet.Wbft
