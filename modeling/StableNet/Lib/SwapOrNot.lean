import Mathlib.Data.List.Nodup
import Mathlib.Data.List.Perm.Subperm
import Mathlib.Data.Set.Function

/-! The swap-or-not shuffle: a round reflects the indices at a pivot and swaps a pair or not, so any number of rounds
permutes them. -/
namespace StableNet.Lib.SwapOrNot
variable {index : ℕ}

/-- The index a round pairs `index` with. -/
def flip (n pivot index : ℕ) : ℕ := (pivot+n-index)%n

/-- One round: a pivot, and a bit for each position. -/
structure Round where
  pivot : ℕ
  bit : ℕ → Bool

def Round.apply (r : Round) (n index : ℕ) : ℕ :=
  let flip := flip n (r.pivot%n) index
  if r.bit (max index flip) then flip else index

def shuffle (n : ℕ) (rounds : List Round) (index : ℕ) : ℕ :=
  rounds.foldl (fun i r => r.apply n i) index

variable {n : ℕ}

lemma flip_lt (p : ℕ) (h : index<n) : flip n p index<n := Nat.mod_lt _ (by omega)

lemma flip_flip {p : ℕ} (hp : p<n) (h : index<n) : flip n p (flip n p index) = index := by
  have hmod (m : ℕ) (hm : m<2*n) : m%n = if m<n then m else m-n := by
    split
    · exact Nat.mod_eq_of_lt ‹_›
    · rw [Nat.mod_eq_sub_mod (by omega),Nat.mod_eq_of_lt (by omega)]
  unfold flip
  rcases Nat.lt_or_ge p index with hlt | hge
  · rw [hmod (p+n-index) (by omega),if_pos (by omega),hmod _ (by omega)]
    split <;> omega
  · rw [hmod (p+n-index) (by omega)]
    split
    · rw [hmod _ (by omega)]
      split <;> omega
    · rw [hmod _ (by omega)]
      split <;> omega

lemma Round.apply_lt (r : Round) (h : index<n) : r.apply n index<n := by
  unfold apply
  dsimp only
  split
  · exact flip_lt _ h
  · exact h

theorem Round.apply_apply (r : Round) (h : index<n) : r.apply n (r.apply n index) = index := by
  have hf := flip_flip (Nat.mod_lt r.pivot (by omega : n > 0)) h
  by_cases hb : r.bit (max index (flip n (r.pivot%n) index))=true
  · have hb' : r.bit (max (flip n (r.pivot%n) index) index)=true := max_comm index _ ▸ hb
    simp [apply,hb,hb',hf]
  · simp [apply,hb]

lemma Round.injOn_apply (r : Round) (n : ℕ) : Set.InjOn (r.apply n) {i | i<n} := by
  intro i hi j hj heq
  rw [← r.apply_apply hi,← r.apply_apply hj,heq]

lemma shuffle_lt (rounds : List Round) (h : index<n) : shuffle n rounds index<n := by
  induction rounds generalizing index with
  | nil => exact h
  | cons r rounds ih => exact ih (r.apply_lt h)

lemma injOn_shuffle (n : ℕ) (rounds : List Round) : Set.InjOn (shuffle n rounds) {i | i<n} := by
  induction rounds with
  | nil => exact Set.injOn_id _
  | cons r rounds ih => exact ih.comp (r.injOn_apply n) fun _ hi => r.apply_lt hi

lemma nodup_map_shuffle (n : ℕ) (rounds : List Round) : ((List.range n).map (shuffle n rounds)).Nodup :=
  List.Nodup.map_on (fun _ hi _ hj heq => injOn_shuffle n rounds (List.mem_range.mp hi) (List.mem_range.mp hj) heq)
    List.nodup_range

lemma perm_map_shuffle (n : ℕ) (rounds : List Round) : ((List.range n).map (shuffle n rounds)).Perm (List.range n) := by
  refine ((nodup_map_shuffle n rounds).subperm fun i hi => ?_).perm_of_length_le (by simp)
  obtain ⟨j,hj,rfl⟩ := List.mem_map.mp hi
  exact List.mem_range.mpr (shuffle_lt rounds (List.mem_range.mp hj))

lemma shuffle_reverse_shuffle (rounds : List Round) (h : index<n) :
    shuffle n rounds.reverse (shuffle n rounds index) = index := by
  induction rounds generalizing index with
  | nil => rfl
  | cons r rounds ih =>
    have hlast (i : ℕ) : shuffle n (r::rounds).reverse i = r.apply n (shuffle n rounds.reverse i) := by
      simp [shuffle]
    have hfirst : shuffle n (r::rounds) index = shuffle n rounds (r.apply n index) := rfl
    rw [hlast,hfirst,ih (r.apply_lt h),r.apply_apply h]

lemma shuffle_shuffle_reverse (rounds : List Round) (h : index<n) :
    shuffle n rounds (shuffle n rounds.reverse index) = index := by
  have := shuffle_reverse_shuffle rounds.reverse h
  rwa [List.reverse_reverse] at this

end StableNet.Lib.SwapOrNot
