import ConsumerContract.Error

/-!
# When an attempt succeeds

A sequence of attempts succeeds if each of them does. `Attempt.Gives` says of an attempt when it succeeds
and with what, and is put together along sequences and lists; `Attempt.Succeeds` says only that there is a
result.
-/

namespace ConsumerContract

namespace Attempt

variable {α β : Type}

/-- A sequence succeeds if both of its parts do. -/
theorem bind_eq_ok {x : Attempt α} {f : α → Attempt β} {b : β} :
    (x >>= f).result = .ok b ↔ ∃ a, x.result = .ok a ∧ (f a).result = .ok b := by
  rw [result_bind]
  cases x.result <;> simp [Except.bind]

/-- The attempt succeeds exactly if `p` holds, and then it gives `a`. -/
def Gives (x : Attempt α) (p : Prop) (a : α) : Prop :=
  ∀ b, x.result = .ok b ↔ p ∧ b = a

namespace Gives

variable {x : Attempt α} {f : α → Attempt β} {p q : Prop} {a : α} {b : β}

theorem pure (a : α) : (Pure.pure a : Attempt α).Gives True a := by
  intro c
  rw [result_pure, true_and]
  exact ⟨fun h => (Except.ok.inj h).symm, fun h => congrArg Except.ok h.symm⟩

/-- A sequence succeeds if both of its parts do, and gives what the second one gives. -/
theorem bind (hx : x.Gives p a) (hf : (f a).Gives q b) : (x >>= f).Gives (p ∧ q) b := by
  intro c
  rw [bind_eq_ok]
  constructor
  · rintro ⟨a', ha, hc⟩
    obtain ⟨hp, rfl⟩ := (hx a').1 ha
    obtain ⟨hq, same⟩ := (hf c).1 hc
    exact ⟨⟨hp, hq⟩, same⟩
  · rintro ⟨⟨hp, hq⟩, same⟩
    exact ⟨a, (hx a).2 ⟨hp, rfl⟩, (hf c).2 ⟨hq, same⟩⟩

/-- A notice before an attempt changes nothing of when it succeeds. -/
theorem afterNotice {g : Unit → Attempt β} (n : Notice) (h : (g ()).Gives p b) :
    (give n >>= g).Gives p b := by
  intro c
  rw [result_give_bind]
  exact h c

theorem congr (h : x.Gives p a) (same : p ↔ q) : x.Gives q a := by
  intro c
  rw [h c, same]

/-- A last step that cannot fail changes the result only. -/
theorem andPure (hx : x.Gives p a) (g : α → β) :
    (x >>= fun a => Pure.pure (g a)).Gives p (g a) :=
  (hx.bind (.pure (g a))).congr (by rw [and_true])

/-- All elements must succeed. -/
theorem each {p : α → Prop} {g : α → β} (h : ∀ a, (f a).Gives (p a) (g a)) (as : List α) :
    (Attempt.each f as).Gives (∀ a ∈ as, p a) (as.map g) := by
  induction as with
  | nil => exact (Gives.pure []).congr (by simp)
  | cons a rest ih =>
    exact congr (bind (h a) (andPure ih (g a :: ·))) List.forall_mem_cons.symm

end Gives

/-- The attempt gives a result. -/
def Succeeds (x : Attempt α) : Prop :=
  ∃ a, x.result = .ok a

theorem succeeds_pure (a : α) : (Pure.pure a : Attempt α).Succeeds :=
  ⟨a, rfl⟩

theorem not_succeeds_fail (e : Error) : ¬ (fail e : Attempt α).Succeeds := by
  rintro ⟨a, h⟩
  cases h

/-- A sequence succeeds exactly if its first part does and the second does after it. -/
theorem succeeds_bind {x : Attempt α} {f : α → Attempt β} :
    (x >>= f).Succeeds ↔ ∃ a, x.result = .ok a ∧ (f a).Succeeds := by
  simp only [Succeeds, bind_eq_ok]
  constructor
  · rintro ⟨b, a, ha, hb⟩
    exact ⟨a, ha, b, hb⟩
  · rintro ⟨a, ha, b, hb⟩
    exact ⟨b, a, ha, hb⟩

theorem succeeds_give_bind {n : Notice} {f : Unit → Attempt β} :
    (give n >>= f).Succeeds ↔ (f ()).Succeeds := by
  simp only [Succeeds, result_give_bind]

/-- An attempt that gives no result fails. -/
theorem exists_error_iff {x : Attempt α} : (∃ e, x.result = .error e) ↔ ¬ x.Succeeds := by
  rw [Succeeds]
  cases x.result <;> simp

end Attempt

end ConsumerContract
