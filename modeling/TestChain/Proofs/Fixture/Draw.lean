import TestChain.Fixture.Basic
import TestChain.Proofs.Outcome

/-! How a draw can fail.

A draw takes its bytes off a source, and looking for a key takes as many as it needs. So a draw
stops early where the source ends too soon, and it need not stop anywhere else (`OnlyDrains`):
drawing on, and steps that give a value, add no failure of their own. -/
namespace TestChain

/-- A draw that fails only where its source has run dry. -/
def OnlyDrains {α : Type} (draw : Draw α) : Prop :=
  ∀ source failure, draw source = .error failure → failure = .drained

section
variable {α β : Type}

theorem OnlyDrains.bind {draw : Draw α} {next : α → Draw β} (h : OnlyDrains draw)
    (hnext : ∀ a, OnlyDrains (next a)) : OnlyDrains (draw >>= next) := by
  intro source failure hfail
  rcases except_bind_eq_error.1 hfail with hdraw | ⟨⟨a, rest⟩, -, hrest⟩
  · exact h source failure hdraw
  · exact hnext a rest failure hrest

theorem onlyDrains_pure (a : α) : OnlyDrains (pure a : Draw α) := nofun

theorem onlyDrains_must {step : FixtureStep} {result : Except ChainError α} {a : α}
    (h : result = .ok a) : OnlyDrains (Draw.must step result) := by
  subst h
  exact onlyDrains_pure a

end

theorem firstKey_eq_error {source : Bytes} {failure : Failure}
    (h : firstKey source = .error failure) : failure = .drained := by
  fun_induction firstKey source with
  | case1 => exact (Except.error.inj h).symm
  | case2 => cases h
  | case3 _ _ _ _ _ ih => exact ih h

theorem onlyDrains_key : OnlyDrains Draw.key := fun _ _ => firstKey_eq_error

theorem onlyDrains_address (params : NetworkParams) : OnlyDrains (Draw.address params) :=
  onlyDrains_key.bind fun _ => onlyDrains_pure _

theorem onlyDrains_integer : OnlyDrains Draw.integer := by
  intro source failure hfail
  by_cases hshort : (source.take 8).length < 8
  · exact (Except.error.inj ((if_pos hshort).symm.trans hfail)).symm
  · cases (if_neg hshort).symm.trans hfail

end TestChain
