import DartNodes.Event

/-! Computations that may fail and report events on the way, also when they fail. -/
namespace DartNodes

/-- The events of a computation, in order, and how it ends. -/
structure Traced (ε α : Type) where
  events : List Event
  outcome : Except ε α

namespace Traced

variable {ε δ α β : Type}

@[ext] theorem ext {x y : Traced ε α} (he : x.events = y.events) (ho : x.outcome = y.outcome) :
    x = y := by
  cases x; cases y; simp_all

/-- What comes after a failure does not happen. -/
def bind (x : Traced ε α) (f : α → Traced ε β) : Traced ε β :=
  match x.outcome with
  | .error e => ⟨x.events, .error e⟩
  | .ok a =>
    let y := f a
    ⟨x.events ++ y.events, y.outcome⟩

instance : Monad (Traced ε) where
  pure a := ⟨[], .ok a⟩
  bind := bind

def ofExcept (outcome : Except ε α) : Traced ε α := ⟨[], outcome⟩

def fail (e : ε) : Traced ε α := ⟨[], .error e⟩

def report (events : List Event) : Traced ε Unit := ⟨events, .ok ()⟩

/-- The same computation, with its failure told as another one. -/
def mapError (f : ε → δ) (x : Traced ε α) : Traced δ α := ⟨x.events, x.outcome.mapError f⟩

@[simp] theorem events_pure (a : α) : (pure a : Traced ε α).events = [] := rfl
@[simp] theorem outcome_pure (a : α) : (pure a : Traced ε α).outcome = .ok a := rfl
@[simp] theorem outcome_ofExcept (o : Except ε α) : (ofExcept o).outcome = o := rfl
@[simp] theorem events_fail (e : ε) : (fail e : Traced ε α).events = [] := rfl
@[simp] theorem outcome_fail (e : ε) : (fail e : Traced ε α).outcome = .error e := rfl
@[simp] theorem events_report (es : List Event) : (report es : Traced ε Unit).events = es := rfl
@[simp] theorem outcome_report (es : List Event) : (report es : Traced ε Unit).outcome = .ok () := rfl
@[simp] theorem outcome_mapError (f : ε → δ) (x : Traced ε α) :
    (x.mapError f).outcome = x.outcome.mapError f := rfl

@[simp] theorem outcome_bind (x : Traced ε α) (f : α → Traced ε β) :
    (x >>= f).outcome = x.outcome >>= fun a => (f a).outcome := by
  rcases x with ⟨_, e | a⟩ <;> rfl

/-- Only what comes after a success matters. -/
theorem bind_congr {x : Traced ε α} {f g : α → Traced ε β} (h : ∀ a, x.outcome = .ok a → f a = g a) :
    x >>= f = x >>= g := by
  rcases x with ⟨es, e | a⟩
  · rfl
  · simp only [Bind.bind, bind, h a rfl]

instance : LawfulMonad (Traced ε) := LawfulMonad.mk' (Traced ε)
  (by rintro α ⟨es, e | a⟩ <;> simp [Functor.map, bind])
  (by intro α β a f; simp [Bind.bind, bind, Pure.pure])
  (by
    rintro α β γ ⟨es, e | a⟩ f g
    · rfl
    · rcases h : f a with ⟨fs, e | b⟩ <;> simp [Bind.bind, bind, h])

end Traced
end DartNodes
