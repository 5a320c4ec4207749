import StableNet.Evm.AccountBits

/-! The base fees of a block are paid out exactly: floors by diligence to the validators, and what they leave to the
coinbase. -/
namespace StableNet.Evm
open Chain
open Lib

def totalDiligence (validators : List Candidate) : ℕ := (validators.map (·.diligence)).sum

/-- What a validator is paid. -/
def payment (total : ℕ) (validators : List Candidate) (c : Candidate) : ℕ :=
  if diligenceSum validators=0 then 0 else share total (diligenceSum validators) c

section
variable {total sum : ℕ} {validators : List Candidate}

lemma diligenceSum_le (validators : List Candidate) : diligenceSum validators ≤ totalDiligence validators :=
  Nat.mod_le _ _

theorem le_sum_share (hsum : 0<sum) (validators : List Candidate) : total*totalDiligence validators ≤
      sum*(validators.map (share total sum)).sum+validators.length*(sum-1) := by
  induction validators with
  | nil => simp [totalDiligence]
  | cons c validators ih =>
    have hdiv := Nat.div_add_mod (total*c.diligence) sum
    have hmod := Nat.mod_lt (total*c.diligence) hsum
    have hstep : total*c.diligence ≤ sum*share total sum c+(sum-1) := by
      rw [share]
      omega
    calc total*totalDiligence (c::validators)
        = total*c.diligence+total*totalDiligence validators := by
          simp [totalDiligence,Nat.mul_add]
      _ ≤ (sum*share total sum c+(sum-1)) +
          (sum*(validators.map (share total sum)).sum+validators.length*(sum-1)) := Nat.add_le_add hstep ih
      _=_ := by
          simp only [List.map_cons,List.sum_cons,List.length_cons]
          ring

theorem dust_lt {dust : ℕ} (hsum : diligenceSum validators≠0)
    (hdust : (validators.map (payment total validators)).sum+dust = total) : dust<validators.length := by
  have hpos := Nat.pos_of_ne_zero hsum
  have hshares : validators.map (payment total validators) = validators.map (share total (diligenceSum validators)) :=
    List.map_congr_left fun c _ => if_neg hsum
  rw [hshares] at hdust
  have hlength : 0<validators.length := by
    rw [List.length_pos_iff]
    rintro rfl
    exact hsum rfl
  have hle := calc diligenceSum validators*(validators.map (share total (diligenceSum validators))).sum +
        diligenceSum validators*dust
      = total*diligenceSum validators := by rw [← Nat.mul_add,hdust,Nat.mul_comm]
    _ ≤ total*totalDiligence validators := Nat.mul_le_mul_left _ (diligenceSum_le validators)
    _ ≤ _ := le_sum_share hpos validators
  have hlt : diligenceSum validators*dust<diligenceSum validators*validators.length :=
    calc diligenceSum validators*dust
        ≤ validators.length*(diligenceSum validators-1) := by omega
      _<validators.length*diligenceSum validators := Nat.mul_lt_mul_of_pos_left (by omega) hlength
      _=_ := Nat.mul_comm _ _
  exact Nat.lt_of_mul_lt_mul_left hlt

theorem le_payment (hwrap : diligenceSum validators=0 → totalDiligence validators=0) (c : Candidate) :
    total*c.diligence/totalDiligence validators ≤ payment total validators c := by
  unfold payment
  split
  · rename_i hzero
    rw [hwrap hzero,Nat.div_zero]
  · exact Nat.div_le_div_left (diligenceSum_le validators) (Nat.pos_of_ne_zero ‹_›)

def paidTo (total : ℕ) (validators : List Candidate) : List (Address × ℕ) :=
  validators.map fun c => (c.addr,payment total validators c)

lemma payments_eq (total : ℕ) (validators : List Candidate) :
    payments total validators = (paidTo total validators).filter (·.2≠0) := by
  unfold payments paidTo payment
  split
  · exact (List.filter_eq_nil_iff.mpr (by simp [*])).symm
  · rfl

lemma sum_filter_ne_zero (l : List (Address × ℕ)) : ((l.filter (·.2≠0)).map (·.2)).sum = (l.map (·.2)).sum := by
  induction l with
  | nil => rfl
  | cons c l ih =>
    by_cases h : c.2=0
    · simpa [h] using ih
    · simpa [h] using ih

lemma credited_filter_ne_zero (l : List (Address × ℕ)) (a : Address) :
    credited (l.filter (·.2≠0)) a = credited l a := by
  unfold credited
  rw [List.filter_comm]
  exact sum_filter_ne_zero _

lemma credited_append (l l' : List (Address × ℕ)) (a : Address) : credited (l++l') a = credited l a+credited l' a := by
  simp [credited]

lemma credited_rest (coinbase : Address) (dust : ℕ) (a : Address) :
    credited (rest coinbase dust) a = if a=coinbase then dust else 0 := by
  unfold rest
  split
  · simp [credited, *]
  · by_cases h : a=coinbase
    · simp [credited,h]
    · simp [credited,h,Ne.symm h]

lemma sum_paidTo (total : ℕ) (validators : List Candidate) :
    ((paidTo total validators).map (·.2)).sum = (validators.map (payment total validators)).sum := by
  simp [paidTo,Function.comp_def]

lemma payment_zero (validators : List Candidate) (c : Candidate) : payment 0 validators c=0 := by
  simp [payment,share]

lemma sum_paidTo_zero (validators : List Candidate) : ((paidTo 0 validators).map (·.2)).sum=0 := by
  rw [sum_paidTo,List.map_congr_left fun c _ => payment_zero validators c]
  simp

lemma credited_paidTo_zero (validators : List Candidate) (a : Address) : credited (paidTo 0 validators) a=0 := by
  rw [← credited_filter_ne_zero,List.filter_eq_nil_iff.mpr (by simp [paidTo,payment_zero])]
  rfl

lemma forall₂_paidTo (hwrap : diligenceSum validators=0 → totalDiligence validators=0) :
    List.Forall₂ (fun c p => p.1=c.addr ∧ total*c.diligence/totalDiligence validators ≤ p.2) validators
      (paidTo total validators) :=
  List.forall₂_map_right_iff.mpr (List.forall₂_same.mpr fun c _ => ⟨rfl,le_payment hwrap c⟩)

lemma credited_eq_zero {l : List (Address × ℕ)} {a : Address} (h : a ∉ l.map (·.1)) : credited l a=0 := by
  have hnone : l.filter (·.1 = a) = [] := List.filter_eq_nil_iff.mpr fun c hc hca =>
    h (of_decide_eq_true hca ▸ List.mem_map_of_mem hc)
  rw [credited,hnone]
  rfl

end

/-- A successful distribution pays out the base fees exactly: each validator gets at least the floor of its
share, the coinbase gets what is left, less than one unit for each validator, and nobody else is paid. -/
theorem base_fee_exact {h : Header} {info : EpochInfo} {db db' : StateDB}
    (hok : distributeBaseFee h (some info) db = .ok db') (hnumber : h.number≠0)
    (hwrap : ∀ validators, validatorCandidates info = some validators → diligenceSum validators=0 →
      totalDiligence validators=0) :
    ∃ (paid : List (Address × ℕ)) (dust : ℕ), (paid.map (·.2)).sum+dust = h.baseFee.getD 0*h.gasUsed ∧
      (∀ a, db'.obj a = { db.obj a with
        balance := (db.obj a).balance+BitVec.ofNat 256 (credited paid a+if a=h.coinbase then dust else 0) }) ∧
      (∀ a ∉ paid.map (·.1), a≠h.coinbase → db'.obj a = db.obj a) ∧
      ∀ validators, validatorCandidates info = some validators →
        List.Forall₂ (fun c p => p.1=c.addr ∧
          h.baseFee.getD 0*h.gasUsed*c.diligence/totalDiligence validators ≤ p.2) validators paid ∧
        (totalDiligence validators≠0 → dust<validators.length) := by
  obtain ⟨hzero,rfl⟩ | ⟨baseFee,_,validators,dust,hbase,hinfo,hvalidators,-,rfl,hsum,-,-⟩ := distributeBaseFee_cases hok
  · have hgas := hzero.resolve_right hnumber
    refine ⟨paidTo 0 ((validatorCandidates info).getD []),0,by simp [hgas,sum_paidTo_zero],fun a => ?_,fun _ _ _ => rfl,
      fun validators hvalidators => ?_⟩
    · simp [credited_paidTo_zero]
    · rw [hgas,Nat.mul_zero,hvalidators,Option.getD_some]
      refine ⟨forall₂_paidTo (hwrap validators hvalidators),fun hne => List.length_pos_iff.mpr ?_⟩
      rintro rfl
      exact hne rfl
  · cases hinfo
    rw [payments_eq,sum_filter_ne_zero] at hsum
    have hobj (a : Address) := obj_credit (payments (baseFee*h.gasUsed) validators++rest h.coinbase dust) db a
    simp only [credited_append,credited_rest,payments_eq,credited_filter_ne_zero] at hobj
    rw [hbase,Option.getD_some]
    refine ⟨paidTo (baseFee*h.gasUsed) validators,dust,hsum,by simpa only [payments_eq] using hobj,
      fun a ha hcoinbase => ?_,fun validators' hvalidators' => ?_⟩
    · rw [payments_eq,hobj,credited_eq_zero ha,if_neg hcoinbase]
      simp
    · cases hvalidators.symm.trans hvalidators'
      refine ⟨forall₂_paidTo (hwrap validators hvalidators),
        fun hne => dust_lt (fun hzero => ?_) (sum_paidTo _ _ ▸ hsum)⟩
      exact hne (hwrap validators hvalidators hzero)

namespace TwoValidators

def info (diligence : ℕ) : EpochInfo := ⟨[⟨0xa1,diligence⟩,⟨0xa2,diligence⟩],[0,1],[]⟩

def validators (diligence : ℕ) : List Candidate := [⟨0xa1,diligence⟩,⟨0xa2,diligence⟩]

lemma validatorCandidates_info (diligence : ℕ) : validatorCandidates (info diligence) = some (validators diligence) :=
  rfl

/-- A block with base fee 5; none of the accounts has a balance yet. -/
def distributed (gasUsed diligence : ℕ) : Except BlockError StateDB :=
  distributeBaseFee (SingleSender.header gasUsed) (some (info diligence)) SingleSender.listed.db

def balancesAre (coinbase validator : ℕ) (db : StateDB) : Bool :=
  (db.obj 0xc0).balance = BitVec.ofNat 256 coinbase && (db.obj 0xa1).balance = BitVec.ofNat 256 validator &&
    (db.obj 0xa2).balance = BitVec.ofNat 256 validator

theorem odd_fee : ∃ (db' : StateDB) (paid : List (Address × ℕ)) (dust : ℕ),
    distributed 3 1 = .ok db' ∧ (paid.map (·.2)).sum+dust = 15 ∧
    List.Forall₂ (fun c p => p.1=c.addr ∧ 15*c.diligence/totalDiligence (validators 1) ≤ p.2) (validators 1)
      paid ∧ dust<2 := by
  obtain ⟨db',hok,-⟩ := exists_of_holds (x := distributed 3 1) (P := balancesAre 1 7) (by decide +kernel)
  have hwrap : ∀ vs, validatorCandidates (info 1) = some vs → diligenceSum vs=0 → totalDiligence vs=0 := by
    intro vs hvs
    cases (validatorCandidates_info 1).symm.trans hvs
    decide
  obtain ⟨paid,dust,hsum,-,-,hpaid⟩ := base_fee_exact hok (by decide) hwrap
  obtain ⟨hshares,hdust⟩ := hpaid _ (validatorCandidates_info 1)
  exact ⟨db',paid,dust,hok,hsum,hshares,hdust (by decide)⟩

/-- The sum of the diligences wraps around to zero, and the coinbase gets the shares of the validators. -/
theorem wrapped_diligence : (∃ db', distributed 2 (2^63) = .ok db' ∧ balancesAre 10 0 db'=true) ∧
    10*2^63/totalDiligence (validators (2^63)) = 5 :=
  ⟨exists_of_holds (by decide +kernel),by decide⟩

end TwoValidators

end StableNet.Evm
