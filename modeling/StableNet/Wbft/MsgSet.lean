import StableNet.Wbft.Justification
import Mathlib.Data.List.AList

/-! Message sets keyed by their sources, and the ROUND-CHANGEs of a sequence by round, in order of insertion. -/
namespace StableNet.Wbft
open Chain

/-- The low 64 bits, as `big.Int.Uint64` gives them. -/
def uint64 (r : ℤ) : ℕ := r.natAbs%2^64

lemma uint64_of_lt {r : ℕ} (h : r<2^64) : uint64 r=r := by
  rw [uint64,Int.natAbs_natCast,Nat.mod_eq_of_lt h]

/-- `wbftMsgSet`: at most one message for each source, the latest. -/
abbrev MsgSet (α : Type) := AList fun _ : Address => α

namespace MsgSet

variable {α : Type}

/-- The last message of a source counts. -/
def add (ms : MsgSet α) (source : Address) (msg : α) : MsgSet α := AList.insert source msg ms

def values (ms : MsgSet α) : List α := ms.entries.map (·.2)

def size (ms : MsgSet α) : ℕ := ms.entries.length

def All (ms : MsgSet α) (P : Address → α → Prop) : Prop := ∀ e ∈ ms.entries, P e.1 e.2

variable {ms : MsgSet α} {P Q : Address → α → Prop}

lemma all_empty : (∅ : MsgSet α).All P := by
  intro e he
  simp at he

lemma All.add {source : Address} {msg : α} (h : ms.All P) (hmsg : P source msg) : (ms.add source msg).All P := by
  intro e he
  rw [MsgSet.add,AList.entries_insert] at he
  rcases List.mem_cons.mp he with rfl | he
  · exact hmsg
  · exact h e ((List.kerase_sublist _ _).subset he)

lemma All.mono (h : ms.All P) (hPQ : ∀ a m, P a m → Q a m) : ms.All Q :=
  fun e he => hPQ _ _ (h e he)

theorem All.quorumOf {source : α → Address} (h : ms.All fun a m => source m=a ∧ P a m) :
    QuorumOf source ms.size (fun m => P (source m) m) ms.values := by
  refine ⟨ms.values,List.Subset.refl _,?_,by simp [values,size],?_⟩
  · have hkeys : ms.values.map source=ms.entries.keys := by
      simp only [values,List.keys,List.map_map]
      exact List.map_congr_left fun e he => (h e he).1
    rw [hkeys]
    exact ms.nodupKeys
  · intro m hm
    obtain ⟨e,he,rfl⟩ := List.mem_map.mp hm
    have := h e he
    rw [this.1]
    exact this.2

end MsgSet

/-- A map from rounds, which the source truncates to `uint64`. -/
abbrev RoundMap (α : Type) := AList fun _ : ℕ => α

structure RoundChangeSet where
  validatorSet : ValidatorSet
  roundChanges : RoundMap (MsgSet RoundChange)
  prepareMessages : RoundMap (List Prepare)
  highestPreparedRound : RoundMap ℕ
  highestPreparedBlock : RoundMap Block

namespace RoundChangeSet

def newRoundChangeSet (valSet : ValidatorSet) : RoundChangeSet := ⟨valSet,∅,∅,∅,∅⟩

/-- Nothing is stored for a new round. -/
def newRound (rcs : RoundChangeSet) (r : ℤ) : RoundChangeSet :=
  let round := uint64 r
  { rcs with
    roundChanges := if (rcs.roundChanges.lookup round).isSome then rcs.roundChanges
      else rcs.roundChanges.insert round ∅
    prepareMessages := if (rcs.prepareMessages.lookup round).isSome then rcs.prepareMessages
      else rcs.prepareMessages.insert round [] }

/-- File a ROUND-CHANGE under its round. -/
def file (rcs : RoundChangeSet) (round : ℕ) (msg : RoundChange) : RoundChangeSet :=
  let msgs := (rcs.roundChanges.lookup round).getD ∅
  { rcs with roundChanges := rcs.roundChanges.insert round (msgs.add msg.source msg) }

/-- Remember a higher prepared round together with its block and PREPAREs. -/
def raise (rcs : RoundChangeSet) (round preparedRound : ℕ) (preparedBlock : Block)
    (prepareMessages : List Prepare) : RoundChangeSet :=
  { rcs with
    highestPreparedRound := rcs.highestPreparedRound.insert round preparedRound
    highestPreparedBlock := rcs.highestPreparedBlock.insert round preparedBlock
    prepareMessages := rcs.prepareMessages.insert round prepareMessages }

/-- `preparedRound.Cmp(rcs.highestPreparedRound[round]) > 0`, or nothing remembered yet. -/
def raises (rcs : RoundChangeSet) (round preparedRound : ℕ) : Bool :=
  match rcs.highestPreparedRound.lookup round with
  | none => true
  | some highest => highest<preparedRound

/-- `Add`; the prepared round and block are either both nil or both set by its caller. -/
def add (rcs : RoundChangeSet) (r : ℕ) (msg : RoundChange) (prepared : Option (ℕ × Block))
    (prepareMessages : List Prepare) (quorumSize : ℕ) : RoundChangeSet :=
  let round := uint64 r
  let filed := rcs.file round msg
  match prepared with
  | none => filed
  | some (preparedRound,preparedBlock) =>
    if rcs.raises round preparedRound ∧
        hasMatchingRoundChangeAndPrepares msg prepareMessages quorumSize=none then
      filed.raise round preparedRound preparedBlock prepareMessages
    else filed

/-- The validators with a ROUND-CHANGE for a round above the given one. -/
def higherRoundSources (rcs : RoundChangeSet) (round : ℕ) : List Address :=
  ((rcs.roundChanges.entries.filter fun e => uint64 round<e.1).flatMap
    fun e => e.2.entries.keys).dedup

def higherRoundMessages (rcs : RoundChangeSet) (round : ℕ) : ℕ := (rcs.higherRoundSources round).length

def getRCMessagesForGivenRound (rcs : RoundChangeSet) (round : ℕ) : ℕ :=
  match rcs.roundChanges.lookup (uint64 round) with
  | some rms => rms.size
  | none => 0

/-- `int(k)` of a `uint64`. -/
def toInt (k : ℕ) : ℤ := if k<2^63 then k else (k%2^64 : ℕ)-2^64

/-- The rounds above the given one that have a ROUND-CHANGE, as `int`s. -/
def higherRounds (rcs : RoundChangeSet) (round : ℕ) : List ℤ :=
  (rcs.roundChanges.entries.filter fun e => uint64 round<e.1).map fun e => toInt e.1

/-- The least round with a ROUND-CHANGE above the given one. -/
def getMinRoundChange (rcs : RoundChangeSet) (round : ℕ) : ℤ :=
  (rcs.higherRounds round).min?.getD round

/-- Delete the rounds below the given one, and those without messages. -/
def clearLowerThan (rcs : RoundChangeSet) (round : ℤ) : RoundChangeSet :=
  let dead := (rcs.roundChanges.entries.filter fun e => e.2.size=0 ∨ e.1<uint64 round).map (·.1)
  { rcs with
    roundChanges := dead.foldl (fun m k => m.erase k) rcs.roundChanges
    highestPreparedRound := dead.foldl (fun m k => m.erase k) rcs.highestPreparedRound
    highestPreparedBlock := dead.foldl (fun m k => m.erase k) rcs.highestPreparedBlock
    prepareMessages := dead.foldl (fun m k => m.erase k) rcs.prepareMessages }

lemma toInt_eq (k : ℕ) : toInt k=k ∧ k<2^63 ∨ toInt k<0 := by
  unfold toInt
  split
  · exact .inl ⟨rfl,‹_›⟩
  · have : k%2^64<2^64 := Nat.mod_lt _ (by norm_num)
    right
    omega

theorem getMinRoundChange_ne {rcs : RoundChangeSet} {round : ℕ}
    (hnum : rcs.higherRoundMessages round≠0) : rcs.getMinRoundChange round≠round := by
  unfold getMinRoundChange
  cases hmin : (rcs.higherRounds round).min? with
  | none =>
    rw [List.min?_eq_none_iff] at hmin
    have hnil : rcs.roundChanges.entries.filter (fun e => uint64 round<e.1) = [] := by
      simpa [higherRounds] using hmin
    simp [higherRoundMessages,higherRoundSources,hnil] at hnum
  | some r =>
    have hmem := List.min?_mem hmin
    obtain ⟨e,he,rfl⟩ := List.mem_map.mp hmem
    have hlt := (List.mem_filter.mp he).2
    simp only [decide_eq_true_eq] at hlt
    rw [Option.getD_some]
    rcases toInt_eq e.1 with ⟨h,hk⟩ | h
    · intro heq
      have : uint64 round=round := uint64_of_lt (by omega)
      omega
    · omega

def All (rcs : RoundChangeSet) (P : RoundChange → Prop) : Prop :=
  ∀ en ∈ rcs.roundChanges.entries, en.2.All fun _ m => P m

section All

variable {rcs : RoundChangeSet} {P : RoundChange → Prop}

lemma all_newRoundChangeSet (valSet : ValidatorSet) : (newRoundChangeSet valSet).All P := by
  intro en hen
  simp [newRoundChangeSet] at hen

lemma All.insert (h : rcs.All P) (round : ℕ) {ms : MsgSet RoundChange} (hms : ms.All fun _ m => P m) :
    ∀ en ∈ (rcs.roundChanges.insert round ms).entries, en.2.All fun _ m => P m := by
  intro en hen
  rw [AList.entries_insert] at hen
  rcases List.mem_cons.mp hen with rfl | hen
  · exact hms
  · exact h en ((List.kerase_sublist _ _).subset hen)

lemma All.newRound (h : rcs.All P) (r : ℤ) : (rcs.newRound r).All P := by
  unfold RoundChangeSet.newRound All
  dsimp only
  split
  · exact h
  · exact h.insert _ MsgSet.all_empty

lemma All.file (h : rcs.All P) (round : ℕ) {m : RoundChange} (hm : P m) : (rcs.file round m).All P := by
  refine h.insert round (MsgSet.All.add ?_ hm)
  cases hl : rcs.roundChanges.lookup round with
  | none => exact MsgSet.all_empty
  | some ms => exact h ⟨round,ms⟩ (AList.mem_lookup_iff.mp hl)

lemma All.add (h : rcs.All P) {m : RoundChange} (hm : P m) (r : ℕ) (prepared : Option (ℕ × Block))
    (prepareMessages : List Prepare) (quorumSize : ℕ) : (rcs.add r m prepared prepareMessages quorumSize).All P := by
  unfold RoundChangeSet.add
  dsimp only
  split
  · exact h.file _ hm
  · split
    · exact h.file _ hm
    · exact h.file _ hm

lemma foldl_erase_subset (dead : List ℕ) (ms : RoundMap (MsgSet RoundChange)) :
    (dead.foldl (fun m k => m.erase k) ms).entries ⊆ ms.entries := by
  induction dead generalizing ms with
  | nil => exact List.Subset.refl _
  | cons k dead ih => exact List.Subset.trans (ih _) (List.kerase_sublist _ _).subset

lemma All.clearLowerThan (h : rcs.All P) (r : ℤ) : (rcs.clearLowerThan r).All P :=
  fun en hen => h en (foldl_erase_subset _ _ hen)

lemma add_validatorSet (rcs : RoundChangeSet) (r : ℕ) (m : RoundChange)
    (prepared : Option (ℕ × Block)) (prepareMessages : List Prepare) (quorumSize : ℕ) :
    (rcs.add r m prepared prepareMessages quorumSize).validatorSet = rcs.validatorSet := by
  unfold RoundChangeSet.add
  dsimp only
  split
  · rfl
  · split <;> rfl

end All

end RoundChangeSet

end StableNet.Wbft
