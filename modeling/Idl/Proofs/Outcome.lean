/-!
# Checks in sequence

Steps one after another come to a good end exactly when each of them does. Where steps change a
state, each of them starts from the state that the one before it left.
-/

set_option autoImplicit false

namespace Idl

variable {ε α β : Type}

@[simp] theorem ok_bind (a : α) (f : α → Except ε β) : (.ok a >>= f) = f a := rfl

@[simp] theorem bind_ok_unit (x : Except ε Unit) : (x >>= fun _ => .ok ()) = x := by
  cases x with
  | error e => rfl
  | ok u => rfl

theorem bind_eq_ok_iff {x : Except ε α} {f : α → Except ε β} {b : β} :
    (x >>= f) = .ok b ↔ ∃ a, x = .ok a ∧ f a = .ok b := by
  cases x with
  | error e => simp [bind, Except.bind]
  | ok a => simp [bind, Except.bind]

theorem seq_eq_ok_iff {x : Except ε Unit} {y : Except ε β} {b : β} :
    (x >>= fun _ => y) = .ok b ↔ x = .ok () ∧ y = .ok b := by
  rw [bind_eq_ok_iff]
  exact ⟨fun ⟨_, hx, hy⟩ => ⟨hx, hy⟩, fun ⟨hx, hy⟩ => ⟨(), hx, hy⟩⟩

theorem unless_eq_ok_iff {p : Prop} [Decidable p] {e : ε} {x : Except ε α} {a : α} :
    (if p then .error e else x) = .ok a ↔ ¬ p ∧ x = .ok a := by
  by_cases h : p <;> simp [h]

theorem when_eq_ok_iff {p : Prop} [Decidable p] {e : ε} {x : Except ε α} {a : α} :
    (if p then x else .error e) = .ok a ↔ p ∧ x = .ok a := by
  by_cases h : p <;> simp [h]

theorem mapError_eq_ok_iff {ε' : Type} {x : Except ε α} {f : ε → ε'} {a : α} :
    x.mapError f = .ok a ↔ x = .ok a := by
  cases x with
  | error e =>
    change Except.error (f e) = .ok a ↔ _
    simp
  | ok b =>
    change Except.ok b = .ok a ↔ _
    simp

theorem mapError_eq_error_iff {ε' : Type} {x : Except ε α} {f : ε → ε'} {e' : ε'} :
    x.mapError f = .error e' ↔ ∃ e, x = .error e ∧ e' = f e := by
  cases x with
  | error e =>
    change Except.error (f e) = .error e' ↔ _
    simp [eq_comm]
  | ok a =>
    change Except.ok a = .error e' ↔ _
    simp

theorem forM_eq_ok_iff {f : α → Except ε Unit} (as : List α) :
    as.forM f = .ok () ↔ ∀ a ∈ as, f a = .ok () := by
  induction as with
  | nil => simp [List.forM, pure, Except.pure]
  | cons a as ih =>
    rw [List.forall_mem_cons, ← ih]
    exact seq_eq_ok_iff

theorem forM_eq_error_iff {f : α → Except ε Unit} (as : List α) {e : ε} :
    as.forM f = .error e ↔ ∃ before a after, as = before ++ a :: after ∧
      (∀ b ∈ before, f b = .ok ()) ∧ f a = .error e := by
  induction as with
  | nil => simp [List.forM, pure, Except.pure]
  | cons a rest ih =>
    change (f a >>= fun _ => rest.forM f) = _ ↔ _
    cases here : f a with
    | error e' =>
      constructor
      · intro failed
        cases failed
        exact ⟨[], a, rest, rfl, by simp, here⟩
      · rintro ⟨before, b, after, split, fine, failed⟩
        cases before with
        | nil =>
          cases split
          rw [← failed, here]
          rfl
        | cons c before =>
          cases split
          cases here.symm.trans (fine a List.mem_cons_self)
    | ok _ =>
      rw [ok_bind, ih]
      constructor
      · rintro ⟨before, b, after, rfl, fine, failed⟩
        exact ⟨a :: before, b, after, rfl, List.forall_mem_cons.mpr ⟨here, fine⟩, failed⟩
      · rintro ⟨before, b, after, split, fine, failed⟩
        cases before with
        | nil =>
          cases split
          cases here.symm.trans failed
        | cons c before =>
          cases split
          exact ⟨before, b, after, rfl, (List.forall_mem_cons.mp fine).2, failed⟩

theorem mapM_ok {f : α → Except ε β} (as : List α) (each : ∀ a ∈ as, ∃ b, f a = .ok b) :
    ∃ bs, as.mapM f = .ok bs := by
  induction as with
  | nil => exact ⟨[], rfl⟩
  | cons a rest ih =>
    obtain ⟨b, first⟩ := each a List.mem_cons_self
    obtain ⟨bs, others⟩ := ih fun c member => each c (List.mem_cons_of_mem a member)
    rw [List.mapM_cons, first, others]
    exact ⟨b :: bs, rfl⟩

section State

variable {σ : Type} {step : EStateM ε σ α} {next : α → EStateM ε σ β} {s s' : σ}

def endState : EStateM.Result ε σ α → σ
  | .ok _ s => s
  | .error _ s => s

/-- What a step comes to, apart from the state. -/
def outcomeOf : EStateM.Result ε σ α → Except ε α
  | .ok a _ => .ok a
  | .error e _ => .error e

theorem bind_of_ok {a : α} (first : step s = .ok a s') : (step >>= next) s = next a s' := by
  change EStateM.bind step next s = _
  rw [EStateM.bind, first]

theorem bind_of_error {e : ε} (first : step s = .error e s') :
    (step >>= next) s = .error e s' := by
  change EStateM.bind step next s = _
  rw [EStateM.bind, first]

theorem bind_of_same (same : step s = step s') : (step >>= next) s = (step >>= next) s' := by
  change EStateM.bind step next s = EStateM.bind step next s'
  rw [EStateM.bind, EStateM.bind, same]

theorem get_bind (next : σ → EStateM ε σ β) : (get >>= next) s = next s s := rfl

theorem ok_of_bind {b : β} (both : (step >>= next) s = .ok b s') :
    ∃ a between, step s = .ok a between ∧ next a between = .ok b s' := by
  cases first : step s with
  | ok a between => exact ⟨a, between, rfl, (bind_of_ok first).symm.trans both⟩
  | error e between => cases (bind_of_error first).symm.trans both

theorem forM_reaches {steps : α → EStateM ε σ Unit} {as : List α} (reached : List α → σ)
    (each : ∀ done, ∀ a ∈ as, steps a (reached done) = .ok () (reached (done ++ [a]))) :
    as.forM steps (reached []) = .ok () (reached as) := by
  have go (rest done : List α) (known : ∀ a ∈ rest, a ∈ as) :
      rest.forM steps (reached done) = .ok () (reached (done ++ rest)) := by
    induction rest generalizing done with
    | nil => rw [List.append_nil]; rfl
    | cons a rest ih =>
      have others := ih (done ++ [a]) fun b member => known b (List.mem_cons_of_mem a member)
      rw [List.append_assoc, List.singleton_append] at others
      exact (bind_of_ok (each done a (known a List.mem_cons_self))).trans others
  exact go as [] fun _ member => member

theorem outcomeOf_forM {steps : α → EStateM ε σ Unit} {outcome : α → Except ε Unit} {as : List α}
    (each : ∀ a ∈ as, ∀ s, outcomeOf (steps a s) = outcome a) (s : σ) :
    outcomeOf (as.forM steps s) = as.forM outcome := by
  induction as generalizing s with
  | nil => rfl
  | cons a rest ih =>
    have others := ih fun b member => each b (List.mem_cons_of_mem a member)
    change outcomeOf ((steps a >>= fun _ => rest.forM steps) s) =
      (outcome a >>= fun _ => rest.forM outcome)
    rw [← each a List.mem_cons_self s]
    cases done : steps a s with
    | error e s' =>
      rw [bind_of_error done]
      rfl
    | ok _ s' =>
      rw [bind_of_ok done]
      exact others s'

theorem ok_of_forM {steps : α → EStateM ε σ Unit} {as : List α} {s s' : σ}
    (all : as.forM steps s = .ok () s') :
    ∀ a ∈ as, ∃ before after, steps a before = .ok () after := by
  induction as generalizing s with
  | nil => intro a member; cases member
  | cons first rest ih =>
    obtain ⟨_, between, here, others⟩ := ok_of_bind all
    intro a member
    rcases List.mem_cons.mp member with rfl | member
    · exact ⟨s, between, here⟩
    · exact ih others a member

end State

end Idl
