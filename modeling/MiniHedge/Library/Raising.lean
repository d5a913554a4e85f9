import Mathlib.Data.List.Forall2

/-! Programs on a state that may raise, and rules for what they keep.

The state is what it has become when a program raises, also for whoever catches
the exception. A program keeps an invariant when both of its ends do.
-/

set_option autoImplicit false

namespace MiniHedge.Library

variable {ε σ α β : Type}

/-- From a state that meets the precondition, the program ends in the one
postcondition, or raises in the other. -/
def Triple (pre : σ → Prop) (x : EStateM ε σ α) (post : α → σ → Prop) (raised : σ → Prop) : Prop :=
  ∀ s, pre s → match x s with
    | .ok a s' => post a s'
    | .error _ s' => raised s'

/-- The program keeps the invariant, whether it raises or not. -/
def Keeps (inv : σ → Prop) (x : EStateM ε σ α) : Prop := Triple inv x (fun _ => inv) inv

namespace Triple

variable {pre raised : σ → Prop} {post : α → σ → Prop} {x : EStateM ε σ α}

theorem pure {a : α} : Triple (post a) (pure a : EStateM ε σ α) post raised := fun _ met => met

theorem modify {f : σ → σ} {post : PUnit → σ → Prop} (met : ∀ s, pre s → post ⟨⟩ (f s)) :
    Triple pre (modify f : EStateM ε σ PUnit) post raised := met

theorem bind {f : α → EStateM ε σ β} {last : β → σ → Prop} (post : α → σ → Prop)
    (first : Triple pre x post raised) (next : ∀ a, Triple (post a) (f a) last raised) :
    Triple pre (x >>= f) last raised := by
  intro s met
  have reached := first s met
  change match EStateM.bind x f s with | .ok b s' => last b s' | .error _ s' => raised s'
  unfold EStateM.bind
  cases ran : x s with
  | ok a s' =>
    rw [ran] at reached
    exact next a s' reached
  | error e s' =>
    rw [ran] at reached
    exact reached

theorem weaken {pre' raised' : σ → Prop} {post' : α → σ → Prop} (triple : Triple pre x post raised)
    (before : ∀ s, pre' s → pre s) (after : ∀ a s, post a s → post' a s)
    (failed : ∀ s, raised s → raised' s) : Triple pre' x post' raised' := by
  intro s met
  have reached := triple s (before s met)
  cases ran : x s with
  | ok a s' =>
    rw [ran] at reached
    exact after a s' reached
  | error e s' =>
    rw [ran] at reached
    exact failed s' reached

/-- The postcondition at the end of a run that returns. -/
theorem ok (triple : Triple pre x post raised) {s s' : σ} {a : α} (met : pre s)
    (ran : x s = .ok a s') : post a s' := by
  have reached := triple s met
  rw [ran] at reached
  exact reached

/-- What the program keeps beside its postconditions. -/
theorem keeping {inv : σ → Prop} (triple : Triple pre x post raised) (keeps : Keeps inv x) :
    Triple (fun s => pre s ∧ inv s) x (fun a s => post a s ∧ inv s) fun s =>
      raised s ∧ inv s := by
  rintro s ⟨met, held⟩
  have reached := triple s met
  have kept := keeps s held
  cases ran : x s with
  | ok a s' =>
    rw [ran] at reached kept
    exact ⟨reached, kept⟩
  | error e s' =>
    rw [ran] at reached kept
    exact ⟨reached, kept⟩

/-- A loop, with what holds while the rest of the list is still to come. -/
theorem forM {Inv : List α → σ → Prop} {f : α → EStateM ε σ PUnit}
    (each : ∀ a rest, Triple (Inv (a :: rest)) (f a) (fun _ => Inv rest) raised) (xs : List α) :
    Triple (Inv xs) (xs.forM f) (fun _ => Inv []) raised := by
  induction xs with
  | nil => exact fun _ met => met
  | cons a rest ih => exact bind _ (each a rest) fun _ => ih

theorem forM_same {f : α → EStateM ε σ PUnit} (each : ∀ a, Triple pre (f a) (fun _ => pre) raised)
    (xs : List α) : Triple pre (xs.forM f) (fun _ => pre) raised := by
  induction xs with
  | nil => exact fun _ met => met
  | cons a rest ih => exact bind _ (each a) fun _ => ih

/-- A fact that does not depend on the state may be assumed before the program. -/
theorem assume {p : Prop} (triple : p → Triple pre x post raised) :
    Triple (fun s => p ∧ pre s) x post raised := fun s met => triple met.1 s met.2

end Triple

/-- The state that a program leaves, whether it returns or raises. -/
def ended (x : EStateM ε σ α) (s : σ) : σ :=
  match x s with
  | .ok _ s' | .error _ s' => s'

theorem modify_eq (f : σ → σ) (s : σ) : (modify f : EStateM ε σ PUnit) s = .ok ⟨⟩ (f s) := rfl

theorem ended_pure (a : α) (s : σ) : ended (pure a : EStateM ε σ α) s = s := rfl

theorem ended_bind_pure (x : EStateM ε σ α) (b : β) (s : σ) :
    ended (x >>= fun _ => pure b) s = ended x s := by
  cases ran : x s <;> simp [ended, ran, Bind.bind, EStateM.bind, Pure.pure, EStateM.pure]

theorem Triple.ended {pre last : σ → Prop} {x : EStateM ε σ α}
    (triple : Triple pre x (fun _ => last) last) {s : σ} (met : pre s) : last (ended x s) := by
  have reached := triple s met
  unfold Library.ended
  cases ran : x s with
  | ok a s' =>
    rw [ran] at reached
    exact reached
  | error e s' =>
    rw [ran] at reached
    exact reached

namespace Keeps

variable {inv : σ → Prop} {x : EStateM ε σ α}

theorem pure (a : α) : Keeps inv (pure a : EStateM ε σ α) := fun _ held => held

theorem bind {f : α → EStateM ε σ β} (first : Keeps inv x) (next : ∀ a, Keeps inv (f a)) :
    Keeps inv (x >>= f) :=
  Triple.bind _ first next

theorem tryCatch {handle : ε → EStateM ε σ α} (body : Keeps inv x)
    (handled : ∀ e, Keeps inv (handle e)) : Keeps inv (tryCatch x handle) := by
  intro s held
  have reached := body s held
  change match EStateM.tryCatch x handle s with | .ok _ s' => inv s' | .error _ s' => inv s'
  unfold EStateM.tryCatch
  cases ran : x s with
  | ok a s' =>
    rw [ran] at reached
    exact reached
  | error e s' =>
    rw [ran] at reached
    exact handled e s' reached

theorem forM_mem {f : α → EStateM ε σ PUnit} {xs : List α} (each : ∀ a ∈ xs, Keeps inv (f a)) :
    Keeps inv (xs.forM f) := by
  induction xs with
  | nil => exact pure _
  | cons a rest ih =>
    exact (each a List.mem_cons_self).bind fun _ => ih fun b member => each b (List.mem_cons_of_mem _ member)

theorem forM {f : α → EStateM ε σ PUnit} (each : ∀ a, Keeps inv (f a)) (xs : List α) :
    Keeps inv (xs.forM f) :=
  forM_mem fun a _ => each a

theorem foldlM {f : β → α → EStateM ε σ β} (each : ∀ b a, Keeps inv (f b a)) (xs : List α)
    (b : β) : Keeps inv (xs.foldlM f b) := by
  induction xs generalizing b with
  | nil => exact pure b
  | cons a rest ih => exact (each b a).bind ih

/-- The invariant at either end of a run. -/
theorem ok (keeps : Keeps inv x) {s s' : σ} {a : α} (held : inv s) (ran : x s = .ok a s') :
    inv s' := by
  have reached := keeps s held
  rw [ran] at reached
  exact reached

theorem error (keeps : Keeps inv x) {s s' : σ} {e : ε} (held : inv s) (ran : x s = .error e s') :
    inv s' := by
  have reached := keeps s held
  rw [ran] at reached
  exact reached

end Keeps

/-! ## Results and exceptions as values -/

/-- How a call to a database or a bus ends: it may raise before or after it has
had its effect. -/
inductive Ending where
  | returned
  | raisedBefore
  | raisedAfter
  deriving DecidableEq, Repr

theorem bind_eq_ok {x : Except ε α} {f : α → Except ε β} {b : β} :
    x >>= f = .ok b ↔ ∃ a, x = .ok a ∧ f a = .ok b := by
  cases x with
  | ok a => simp [Bind.bind, Except.bind]
  | error e => simp [Bind.bind, Except.bind]

instance decidableOk (x : Except ε α) (p : α → Prop) [DecidablePred p] :
    Decidable (∃ a, x = .ok a ∧ p a) :=
  match x with
  | .ok a => decidable_of_iff (p a) (by simp)
  | .error _ => isFalse (by simp)

/-- A result for each element, or the first exception. -/
theorem mapM_eq_ok {f : α → Except ε β} {xs : List α} {ys : List β} :
    xs.mapM f = .ok ys ↔ List.Forall₂ (fun x y => f x = .ok y) xs ys := by
  induction xs generalizing ys with
  | nil => cases ys <;> simp [Pure.pure, Except.pure]
  | cons x rest ih =>
    rw [List.mapM_cons, bind_eq_ok]
    constructor
    · rintro ⟨y, first, later⟩
      obtain ⟨ys, rest, same⟩ := bind_eq_ok.mp later
      cases same
      exact .cons first (ih.mp rest)
    · rintro (_ | ⟨first, later⟩)
      exact ⟨_, first, bind_eq_ok.mpr ⟨_, ih.mpr later, rfl⟩⟩

/-- Where each element has a result, all of them have. -/
theorem exists_mapM {f : α → Except ε β} {l : List α} (each : ∀ x ∈ l, ∃ y, f x = .ok y) :
    ∃ ys, l.mapM f = .ok ys := by
  induction l with
  | nil => exact ⟨[], rfl⟩
  | cons x rest ih =>
    obtain ⟨y, first⟩ := each x List.mem_cons_self
    obtain ⟨ys, later⟩ := ih fun other inside => each other (List.mem_cons_of_mem x inside)
    exact ⟨y :: ys, mapM_eq_ok.mpr (.cons first (mapM_eq_ok.mp later))⟩

/-- Two lists that go with a third, where what goes with an element determines the other. -/
theorem forall₂_map_eq {γ : Type} {r : α → β → Prop} {t : α → γ → Prop} {g : γ → β} {xs : List α}
    {ys : List β} {zs : List γ} (first : List.Forall₂ r xs ys) (second : List.Forall₂ t xs zs)
    (same : ∀ x y z, r x y → t x z → y = g z) : ys = zs.map g := by
  induction first generalizing zs with
  | nil =>
    cases second
    rfl
  | cons related _ ih =>
    cases second with
    | cons other later => rw [List.map_cons, same _ _ _ related other, ih later]

theorem forall₂_mem {r : α → β → Prop} {xs : List α} {ys : List β} (each : List.Forall₂ r xs ys)
    {x : α} (member : x ∈ xs) : ∃ y ∈ ys, r x y := by
  induction each with
  | nil => cases member
  | cons first _ ih =>
    rcases List.mem_cons.mp member with rfl | later
    · exact ⟨_, List.mem_cons_self, first⟩
    · obtain ⟨y, inside, related⟩ := ih later
      exact ⟨y, List.mem_cons_of_mem _ inside, related⟩

end MiniHedge.Library
