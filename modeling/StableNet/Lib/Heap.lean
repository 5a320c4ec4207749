import Mathlib.Data.List.Perm.Basic
import Mathlib.Data.Nat.Basic
import Mathlib.Logic.Equiv.Basic
import Mathlib.Order.Basic

/-! Binary heaps on lists, as the `container/heap` package of Go moves their elements, for a comparison that need not
be total. -/
namespace StableNet.Lib.Heap
variable {α : Type} (less : α → α → Bool)

def lt (l : List α) (i j : ℕ) : Bool :=
  match l[i]?, l[j]? with
  | some a, some b => less a b
  | _, _ => false

def swap (l : List α) (i j : ℕ) : List α :=
  match l[i]?, l[j]? with
  | some a, some b => (l.set i b).set j a
  | _, _ => l

def parent (j : ℕ) : ℕ := (j-1)/2

/-- Move the element at `j` towards the root. -/
def up : ℕ → ℕ → List α → List α
  | 0, _, l => l
  | fuel+1, j, l =>
    let i := parent j
    if i = j || !lt less l j i then l else up fuel i (swap l i j)

/-- The lesser child of `i` among the first `n` elements. -/
def child (n i : ℕ) (l : List α) : ℕ :=
  let j := 2*i+1
  if j+1<n && lt less l (j+1) j then j+1 else j

/-- Move the element at `i` towards the leaves of the first `n` elements; also gives its last place. -/
def down (n : ℕ) : ℕ → ℕ → List α → List α × ℕ
  | 0, i, l => (l,i)
  | fuel+1, i, l =>
    if n ≤ 2*i+1 then (l,i)
    else
      let j := child less n i l
      if !lt less l j i then (l,i) else down n fuel j (swap l i j)

/-- Establish the order, from the last parent up. -/
def init (l : List α) : List α :=
  (List.range (l.length/2)).foldr (fun i l => (down less l.length l.length i l).1) l

def push (x : α) (l : List α) : List α := up less (l.length+1) l.length (l++[x])

def pop (l : List α) : Option (α × List α) :=
  let n := l.length-1
  let l := (down less n n 0 (swap l 0 n)).1
  l.getLast?.map fun x => (x,l.dropLast)

/-- Restore the order after the element at `i` was replaced. -/
def fix (i : ℕ) (l : List α) : List α :=
  let (l',i') := down less l.length l.length i l
  if i < i' then l' else up less l.length i l'

lemma swap_perm (l : List α) (i j : ℕ) : (swap l i j).Perm l := by
  rw [swap]
  split
  · rename_i a b ha hb
    obtain ⟨hi,rfl⟩ := List.getElem?_eq_some_iff.mp ha
    obtain ⟨hj,rfl⟩ := List.getElem?_eq_some_iff.mp hb
    exact List.set_set_perm hi hj
  · exact .refl l

lemma up_perm (fuel j : ℕ) (l : List α) : (up less fuel j l).Perm l := by
  induction fuel generalizing j l with
  | zero => exact .refl l
  | succ fuel ih =>
    rw [up]
    split
    · exact .refl l
    · exact (ih ..).trans (swap_perm ..)

lemma down_perm (n fuel i : ℕ) (l : List α) : (down less n fuel i l).1.Perm l := by
  induction fuel generalizing i l with
  | zero => exact .refl l
  | succ fuel ih =>
    rw [down]
    split
    · exact .refl l
    · dsimp only
      split
      · exact .refl l
      · exact (ih ..).trans (swap_perm ..)

lemma init_perm (l : List α) : (init less l).Perm l := by
  rw [init]
  induction List.range (l.length/2) with
  | nil => exact .refl l
  | cons i is ih => exact (down_perm ..).trans ih

lemma fix_perm (i : ℕ) (l : List α) : (fix less i l).Perm l := by
  rw [fix]
  dsimp only
  split
  · exact down_perm ..
  · exact (up_perm ..).trans (down_perm ..)

variable {less} {l : List α} {n i j k : ℕ}

lemma getElem?_swap (hi : i<l.length) (hj : j<l.length) (k : ℕ) : (swap l i j)[k]? = l[Equiv.swap i j k]? := by
  rw [swap,List.getElem?_eq_getElem hi,List.getElem?_eq_getElem hj]
  dsimp only
  by_cases hkj : k=j
  · subst hkj
    simp [hj,hi]
  · by_cases hki : k = i
    · subst hki
      rw [List.getElem?_set_ne (Ne.symm hkj),List.getElem?_set_self hi,Equiv.swap_apply_left,
        List.getElem?_eq_getElem hj]
    · rw [List.getElem?_set_ne (Ne.symm hkj),List.getElem?_set_ne (Ne.symm hki),Equiv.swap_apply_of_ne_of_ne hki hkj]

@[simp]
lemma length_swap (l : List α) (i j : ℕ) : (swap l i j).length = l.length := (swap_perm l i j).length_eq

lemma lt_swap (hi : i<l.length) (hj : j<l.length) (a b : ℕ) :
    lt less (swap l i j) a b = lt less l (Equiv.swap i j a) (Equiv.swap i j b) := by
  rw [lt,lt,getElem?_swap hi hj,getElem?_swap hi hj]

lemma parent_lt (h : 0<j) : parent j<j := by
  rw [parent]
  omega

lemma children_of_parent (h : 0<j) (hp : parent j = i) : j = 2*i+1 ∨ j = 2*i+2 := by
  rw [parent] at hp
  omega

/-- A strict order whose incomparability is transitive. -/
structure WeakOrder (less : α → α → Bool) : Prop where
  asymm : ∀ {a b}, less a b=true → less b a=false
  negTrans : ∀ {a b c}, less a b=false → less b c=false → less a c=false

namespace WeakOrder
variable (hw : WeakOrder less)
include hw

lemma lt_asymm (h : lt less l i j=true) : lt less l j i=false := by
  simp only [lt] at h ⊢
  split at h
  · rename_i hi hj
    rw [hi,hj]
    exact hw.asymm h
  · cases h

lemma lt_irrefl (l : List α) (i : ℕ) : lt less l i i=false := by
  cases h : lt less l i i with
  | false => rfl
  | true => exact h ▸ hw.lt_asymm h

lemma lt_negTrans (hj : j<l.length) (h : lt less l i j=false) (h' : lt less l j k=false) : lt less l i k=false := by
  simp only [lt,List.getElem?_eq_getElem hj] at h h' ⊢
  split
  · rename_i hi hk
    rw [hi] at h
    rw [hk] at h'
    exact hw.negTrans h h'
  · rfl

end WeakOrder

/-- No element before its parent, for the parents from `k` on among the first `n` elements. -/
def OrderedFrom (less : α → α → Bool) (n k : ℕ) (l : List α) : Prop :=
  ∀ j, 0<j → j<n → k ≤ parent j → lt less l j (parent j)=false

/-- No element comes before its parent. -/
def IsHeap (less : α → α → Bool) (l : List α) : Prop := OrderedFrom less l.length 0 l

lemma IsHeap.root (hw : WeakOrder less) (h : IsHeap less l) (hj : j<l.length) : lt less l j 0=false := by
  induction j using Nat.strongRecOn with
  | ind j ih =>
    by_cases h0 : j=0
    · subst h0
      exact hw.lt_irrefl l 0
    · have hp := parent_lt (Nat.pos_of_ne_zero h0)
      exact hw.lt_negTrans (hp.trans hj) (h j (Nat.pos_of_ne_zero h0) hj (Nat.zero_le _)) (ih _ hp (hp.trans hj))

lemma IsHeap.head (hw : WeakOrder less) {x : α} {rest : List α} (h : IsHeap less (x::rest)) :
    ∀ y ∈ x::rest, less y x=false := by
  intro y hy
  obtain ⟨j,hj,rfl⟩ := List.getElem_of_mem hy
  have hroot := h.root hw hj
  rwa [lt,List.getElem?_eq_getElem hj] at hroot

/-- The element at `i` may be too large for its place, seen from the parents `k` on. -/
structure DownReady (less : α → α → Bool) (n k i : ℕ) (l : List α) : Prop where
  length : n ≤ l.length
  index : k ≤ i
  others : ∀ j, 0<j → j<n → k ≤ parent j → parent j ≠ i → lt less l j (parent j)=false
  grand : 0 < i → k ≤ parent i → ∀ j, 0<j → j<n → parent j = i → lt less l j (parent i)=false

section Sift
variable (hw : WeakOrder less)
include hw

omit hw in
lemma child_bounds (h : 2*i+1<n) : 0<child less n i l ∧ child less n i l<n ∧ parent (child less n i l) = i := by
  simp only [child,parent]
  split
  · rename_i hc
    simp only [Bool.and_eq_true,decide_eq_true_eq] at hc
    omega
  · omega

lemma child_least (hj : 0<j) (hjn : j<n) (hp : parent j = i) : lt less l j (child less n i l)=false := by
  simp only [child]
  split
  · rename_i hc
    simp only [Bool.and_eq_true,decide_eq_true_eq] at hc
    rcases children_of_parent hj hp with rfl | rfl
    · exact hw.lt_asymm hc.2
    · exact hw.lt_irrefl l _
  · rename_i hc
    rcases children_of_parent hj hp with rfl | rfl
    · exact hw.lt_irrefl l _
    · simpa [hjn] using hc

lemma DownReady.move (h : DownReady less n k i l) (hin : 2*i+1<n) (hlt : lt less l (child less n i l) i=true) :
    DownReady less n k (child less n i l) (swap l i (child less n i l)) := by
  have hleast (j : ℕ) (hj : 0<j) (hjn : j<n) (hp : parent j = i) := @child_least α less l n i j hw hj hjn hp
  obtain ⟨hc,hcn,hci⟩ := @child_bounds α less l n i hin
  generalize child less n i l = c at hleast hc hcn hci hlt ⊢
  have hic : i<c := hci ▸ parent_lt hc
  have hil : i<l.length := (hic.trans hcn).trans_le h.length
  have hcl : c<l.length := hcn.trans_le h.length
  have hki := h.index
  refine ⟨by simpa using h.length,by omega,?_,?_⟩
  · intro j hj hjn hkp hpc
    rw [lt_swap hil hcl]
    by_cases hjc : j=c
    · subst hjc
      simpa [hci] using hw.lt_asymm hlt
    · by_cases hji : j = i
      · subst hji
        have hp := parent_lt hj
        rw [Equiv.swap_apply_left,Equiv.swap_apply_of_ne_of_ne hp.ne hpc]
        exact h.grand hj hkp c hc hcn hci
      · rw [Equiv.swap_apply_of_ne_of_ne hji hjc]
        by_cases hpi : parent j = i
        · rw [hpi,Equiv.swap_apply_left]
          exact hleast j hj hjn hpi
        · rw [Equiv.swap_apply_of_ne_of_ne hpi hpc]
          exact h.others j hj hjn hkp hpi
  · intro _ hkc j hj hjn hjc
    have hcj : c<j := hjc ▸ parent_lt hj
    rw [lt_swap hil hcl,hci,Equiv.swap_apply_left,Equiv.swap_apply_of_ne_of_ne (by omega) (by omega)]
    exact hjc ▸ h.others j hj hjn (by omega) (by omega)

lemma DownReady.orderedFrom_down {fuel : ℕ} (h : DownReady less n k i l) (hfuel : n ≤ i+fuel) :
    OrderedFrom less n k (down less n fuel i l).1 := by
  induction fuel generalizing i l with
  | zero =>
    intro j hj hjn hkp
    have hp := parent_lt hj
    exact h.others j hj hjn hkp (by omega)
  | succ fuel ih =>
    rw [down]
    split
    · intro j hj hjn hkp
      refine h.others j hj hjn hkp fun hp => ?_
      have := children_of_parent hj hp
      omega
    · rename_i hin
      rw [Nat.not_le] at hin
      have hbounds := @child_bounds α less l n i hin
      dsimp only
      split
      · rename_i hstop
        rw [Bool.not_eq_true'] at hstop
        intro j hj hjn hkp
        by_cases hp : parent j = i
        · rw [hp]
          exact hw.lt_negTrans (hbounds.2.1.trans_le h.length) (child_least hw hj hjn hp) hstop
        · exact h.others j hj hjn hkp hp
      · rename_i hgo
        rw [Bool.not_eq_true',Bool.not_eq_false] at hgo
        have hlt := parent_lt hbounds.1
        exact ih (h.move hw hin hgo) (by omega)

lemma isHeap_init (l : List α) : IsHeap less (init less l) := by
  have hrange (m : ℕ) (l : List α) (h : OrderedFrom less l.length m l) :
      IsHeap less ((List.range m).foldr (fun i l => (down less l.length l.length i l).1) l) := by
    induction m generalizing l with
    | zero => exact h
    | succ m ih =>
      rw [List.range_succ,List.foldr_append]
      refine ih (down less l.length l.length m l).1 ?_
      rw [(down_perm ..).length_eq]
      refine DownReady.orderedFrom_down hw ⟨le_rfl,le_rfl,fun j hj hjn hm hne => h j hj hjn (by omega),?_⟩ (by omega)
      intro hm hp
      have := parent_lt hm
      omega
  apply hrange
  intro j hj hjn hp
  rw [parent] at hp
  omega

lemma isHeap_fix_zero {x y : α} {rest : List α} (h : IsHeap less (x::rest)) : IsHeap less (fix less 0 (y::rest)) := by
  have hready : DownReady less (y::rest).length 0 0 (y::rest) := by
    refine ⟨le_rfl,le_rfl,?_,fun h0 => absurd h0 (lt_irrefl 0)⟩
    intro j hj hjn _ hp
    have hsame (i : ℕ) (hi : i≠0) : (y::rest)[i]? = (x::rest)[i]? := by
      cases i with
      | zero => exact absurd rfl hi
      | succ i => rfl
    rw [lt,hsame j hj.ne',hsame _ hp]
    exact h j hj hjn (Nat.zero_le _)
  have hdown : OrderedFrom less (y::rest).length 0 (down less (y::rest).length (y::rest).length 0 (y::rest)).1 :=
    hready.orderedFrom_down hw (by omega)
  have hup (fuel : ℕ) (l : List α) : up less fuel 0 l=l := by cases fuel <;> rfl
  rw [fix]
  dsimp only
  rw [hup,ite_self,IsHeap,(down_perm ..).length_eq]
  exact hdown

omit hw in
lemma getElem?_down {fuel m : ℕ} (hn : n ≤ l.length) (hm : n ≤ m) : (down less n fuel i l).1[m]? = l[m]? := by
  induction fuel generalizing i l with
  | zero => rfl
  | succ fuel ih =>
    rw [down]
    split
    · rfl
    · rename_i hin
      rw [Nat.not_le] at hin
      obtain ⟨hc,hcn,hci⟩ := @child_bounds α less l n i hin
      have hic := hci ▸ parent_lt hc
      dsimp only
      split
      · rfl
      · rw [ih (by simpa using hn),getElem?_swap (by omega) (by omega),
          Equiv.swap_apply_of_ne_of_ne (by omega) (by omega)]

lemma pop_cons (x : α) (rest : List α) : ∃ l', pop less (x::rest) = some (x,l') ∧ l'.Perm rest ∧
    (IsHeap less (x::rest) → IsHeap less l') := by
  have hlast : (down less rest.length rest.length 0 (swap (x::rest) 0 rest.length)).1[rest.length]? = some x := by
    rw [getElem?_down (by simp) le_rfl,getElem?_swap (by simp) (by simp),Equiv.swap_apply_right]
    rfl
  have hperm := (down_perm less rest.length rest.length 0 (swap (x::rest) 0 rest.length)).trans (swap_perm ..)
  have hordered (h : IsHeap less (x::rest)) : OrderedFrom less rest.length 0
      (down less rest.length rest.length 0 (swap (x::rest) 0 rest.length)).1 := by
    refine DownReady.orderedFrom_down hw ⟨by simp,le_rfl,?_,fun h0 => absurd h0 (lt_irrefl 0)⟩ (by omega)
    intro j hj hjn _ hp
    have hpj := parent_lt hj
    rw [lt_swap (by simp) (by simp),Equiv.swap_apply_of_ne_of_ne hj.ne' hjn.ne,
      Equiv.swap_apply_of_ne_of_ne hp (hpj.trans hjn).ne]
    exact h j hj (Nat.lt_succ_of_lt hjn) (Nat.zero_le _)
  have hpop : pop less (x::rest) =
      (down less rest.length rest.length 0 (swap (x::rest) 0 rest.length)).1.getLast?.map fun y =>
        (y,(down less rest.length rest.length 0 (swap (x::rest) 0 rest.length)).1.dropLast) := rfl
  generalize (down less rest.length rest.length 0 (swap (x::rest) 0 rest.length)).1 = d at hlast hperm hordered hpop
  have hlength : d.length = rest.length+1 := hperm.length_eq
  obtain ⟨ys,rfl⟩ : ∃ ys, d = ys++[x] := by
    rw [← List.getLast?_eq_some_iff,List.getLast?_eq_getElem?,hlength]
    exact hlast
  have hys : ys.length=rest.length := by simpa using hlength
  refine ⟨ys,by simp [hpop],((List.perm_append_singleton x ys).symm.trans hperm).cons_inv,?_⟩
  intro h j hj hjl _
  have hpj := (parent_lt hj).trans hjl
  have hj' := hordered h j hj (hys ▸ hjl) (Nat.zero_le _)
  rwa [lt,List.getElem?_append_left hjl,List.getElem?_append_left hpj] at hj'

end Sift

end StableNet.Lib.Heap
