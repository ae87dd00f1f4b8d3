import DartNodes.Proofs.Outcome

/-! Computations that end alike: both well or both in failure, with results or failures that are related. -/
namespace DartNodes.Outcome

variable {ε δ ζ η α β γ κ : Type}

/-- Both computations end well, with results that are related by `S`, or both fail, with failures that are
related by `R`. -/
inductive Alike (R : ε → δ → Prop) (S : α → β → Prop) : Except ε α → Except δ β → Prop
  | ok {a b} (results : S a b) : Alike R S (.ok a) (.ok b)
  | error {e d} (failures : R e d) : Alike R S (.error e) (.error d)

namespace Alike

variable {R : ε → δ → Prop} {S : α → β → Prop} {T : γ → κ → Prop} {x : Except ε α} {y : Except δ β}

lemma bind (h : Alike R S x y) {f : α → Except ε γ} {g : β → Except δ κ}
    (hfg : ∀ a b, S a b → Alike R T (f a) (g b)) : Alike R T (x >>= f) (y >>= g) := by
  cases h with
  | ok results => exact hfg _ _ results
  | error failures => exact .error failures

lemma map (h : Alike R S x y) {f : α → γ} {g : β → κ} (hfg : ∀ a b, S a b → T (f a) (g b)) :
    Alike R T (f <$> x) (g <$> y) := by
  cases h with
  | ok results => exact .ok (hfg _ _ results)
  | error failures => exact .error failures

lemma mapError {Q : ζ → η → Prop} (h : Alike R S x y) {f : ε → ζ} {g : δ → η}
    (hfg : ∀ e d, R e d → Q (f e) (g d)) : Alike Q S (x.mapError f) (y.mapError g) := by
  cases h with
  | ok results => exact .ok results
  | error failures => exact .error (hfg _ _ failures)

/-- Traversals whose steps end alike do so, too. -/
theorem mapM {f : α → Except ε γ} {g : β → Except δ κ} (hfg : ∀ a b, S a b → Alike R T (f a) (g b))
    {xs : List α} {ys : List β} (h : List.Forall₂ S xs ys) :
    Alike R (List.Forall₂ T) (xs.mapM f) (ys.mapM g) := by
  induction h with
  | nil => exact .ok .nil
  | cons hhead htail ih =>
    rw [List.mapM_cons, List.mapM_cons]
    refine (hfg _ _ hhead).bind ?_
    intro c d hcd
    refine ih.bind ?_
    intro cs ds hcsds
    exact .ok (.cons hcd hcsds)

end Alike
end DartNodes.Outcome
