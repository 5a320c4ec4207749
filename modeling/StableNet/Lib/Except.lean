import Mathlib.Logic.Basic
import Mathlib.Data.List.Forall2

/-! Taking a computation apart that ended without an error. -/
namespace StableNet.Lib
variable {ε ε' α β : Type} {x : Except ε α} {f : α → Except ε β} {e : ε} {xs : List α}
variable {a : α} {c : Bool} {u : Unit}

lemma bind_eq_ok {b : β} : x >>= f = .ok b ↔ ∃ a, x = .ok a ∧ f a = .ok b := by
  cases x with
  | error | ok => simp [bind,Except.bind]

lemma ok_of_bind {b : β} (h : x >>= f = .ok b) : ∃ a, f a = .ok b := (bind_eq_ok.mp h).imp fun _ => And.right

lemma ok_bind (a : α) (f : α → Except ε β) : (Except.ok a >>= f) = f a := rfl

lemma mapError_eq_ok {f : ε → ε'} : x.mapError f = .ok a ↔ x = .ok a := by
  cases x with
  | error | ok => simp [Except.mapError]

/-- Fail unless the condition holds. -/
def require (c : Bool) (e : ε) : Except ε Unit := if c then .ok () else .error e

lemma require_eq_ok : require c e = .ok u ↔ c=true := by
  cases c <;> simp [require]

/-- The value, or the error where there is none. -/
def orError (e : ε) : Option α → Except ε α
  | none => .error e
  | some a => .ok a

lemma orError_eq_ok {x : Option α} : orError e x = .ok a ↔ x = some a := by
  cases x <;> simp [orError]

/-- The computation ended without an error, and its result passes a test. -/
def holds (x : Except ε α) (P : α → Bool) : Bool :=
  match x with
  | .ok a => P a
  | .error _ => false

lemma exists_of_holds {P : α → Bool} (h : holds x P=true) : ∃ a, x = .ok a ∧ P a=true := by
  cases x with
  | error e => simp [holds] at h
  | ok a => exact ⟨a,rfl,h⟩

/-- The computation ended with an error that passes a test. -/
def fails (x : Except ε α) (P : ε → Bool) : Bool :=
  match x with
  | .ok _ => false
  | .error e => P e

lemma exists_of_fails {P : ε → Bool} (h : fails x P=true) : ∃ e, x = .error e ∧ P e=true := by
  cases x with
  | error e => exact ⟨e,rfl,h⟩
  | ok a => simp [fails] at h

lemma bind_eq_error : x >>= f = .error e ↔ x = .error e ∨ ∃ a, x = .ok a ∧ f a = .error e := by
  cases x with
  | error | ok => simp [bind,Except.bind]

lemma mapM_eq_ok {ys : List β} : xs.mapM f = .ok ys ↔ List.Forall₂ (fun x y => f x = .ok y) xs ys := by
  induction xs generalizing ys with
  | nil => simp [pure,Except.pure,eq_comm]
  | cons x xs ih =>
    rw [List.mapM_cons,bind_eq_ok,List.forall₂_cons_left_iff]
    constructor
    · rintro ⟨y,hy,h⟩
      obtain ⟨zs,hzs,h⟩ := bind_eq_ok.mp h
      cases h
      exact ⟨y,zs,hy,ih.mp hzs,rfl⟩
    · rintro ⟨y,zs,hy,hzs,rfl⟩
      exact ⟨y,hy,bind_eq_ok.mpr ⟨zs,ih.mpr hzs,rfl⟩⟩

lemma forM_eq_ok {f : α → Except ε Unit} : xs.forM f = .ok u ↔ ∀ x ∈ xs, f x = .ok () := by
  induction xs with
  | nil => simp [pure,Except.pure]
  | cons x xs ih =>
    change f x >>= (fun _ => xs.forM f) = .ok u ↔ _
    rw [bind_eq_ok,List.forall_mem_cons,← ih]
    exact ⟨fun ⟨(),h⟩ => h,fun h => ⟨(),h⟩⟩

lemma exists_of_mapM_eq_error (h : xs.mapM f = .error e) : ∃ x ∈ xs, f x = .error e := by
  induction xs with
  | nil => simp [pure,Except.pure] at h
  | cons x xs ih =>
    rw [List.mapM_cons,bind_eq_error] at h
    rcases h with h | ⟨y,_,h⟩
    · exact ⟨x,List.mem_cons_self,h⟩
    · rcases bind_eq_error.mp h with h | ⟨zs,_,h⟩
      · obtain ⟨x',hx',h⟩ := ih h
        exact ⟨x',List.mem_cons_of_mem _ hx',h⟩
      · cases h

/-- Every error of the computation has a property. -/
def ErrorsIn (P : ε → Prop) (x : Except ε α) : Prop := ∀ e, x = .error e → P e

namespace ErrorsIn

variable {P : ε → Prop}

lemma ok (a : α) : ErrorsIn P (.ok a : Except ε α) := fun _ h => by cases h

lemma error (h : P e) : ErrorsIn P (.error e : Except ε α) := fun _ he => by cases he; exact h

lemma bind (hx : ErrorsIn P x) (hf : ∀ a, ErrorsIn P (f a)) : ErrorsIn P (x >>= f) := by
  intro e h
  rcases bind_eq_error.mp h with h | ⟨a,_,h⟩
  · exact hx e h
  · exact hf a e h

lemma require (h : P e) : ErrorsIn P (require c e) := by
  unfold Lib.require
  split
  · exact .ok ()
  · exact .error h

lemma map {f : α → β} (hx : ErrorsIn P x) : ErrorsIn P (x.map f) := by
  intro e h
  cases x with
  | ok a => cases h
  | error e' => exact hx e (by simpa [Except.map] using h)

lemma mapM {xs : List α} (h : ∀ x ∈ xs, ErrorsIn P (f x)) : ErrorsIn P (xs.mapM f) := by
  intro e he
  obtain ⟨x,hx,hfx⟩ := exists_of_mapM_eq_error he
  exact h x hx e hfx

end ErrorsIn

/-- What a computation returns has one property, and its error another. -/
def Post (E : ε → Prop) (P : α → Prop) (x : Except ε α) : Prop :=
  match x with
  | .ok a => P a
  | .error e => E e

namespace Post

variable {E : ε → Prop} {P P' : α → Prop} {Q : β → Prop}

lemma ok (h : P a) : Post E P (.ok a) := h

lemma error (h : E e) : Post E P (.error e : Except ε α) := h

lemma of_eq (hx : x = .ok a) (h : P a) : Post E P x := by
  rw [hx]
  exact h

lemma mono (h : Post E P x) (himp : ∀ a, P a → P' a) : Post E P' x := by
  cases x with
  | ok a => exact himp a h
  | error e => exact h

lemma bind (h : Post E P x) (hf : ∀ a, P a → Post E Q (f a)) : Post E Q (x >>= f) := by
  cases x with
  | ok a => exact hf a h
  | error e => exact h

lemma of_ok (h : Post E P x) (hx : x = .ok a) : P a := by
  rw [hx] at h
  exact h

lemma foldlM {σ : Type} {Inv : σ → Prop} {f : σ → α → Except ε σ} (hf : ∀ s a, Inv s → Post E Inv (f s a))
    (xs : List α) {s : σ} (hs : Inv s) : Post E Inv (xs.foldlM f s) := by
  induction xs generalizing s with
  | nil => exact hs
  | cons x xs ih =>
    rw [List.foldlM_cons]
    exact (hf s x hs).bind fun s' hs' => ih hs'

end Post

end StableNet.Lib
