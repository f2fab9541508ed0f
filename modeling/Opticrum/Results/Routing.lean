import Opticrum.Contract.Construct
import Opticrum.Contract.Faults
import Opticrum.Contract.Rent

/-!
# The defensive branches

The branch verifiers ask again for what the root has already established: that
the old state is an Order or a Match, that the new state is a Match, that the args
have not changed.  `Routed` collects what a verifier is handed, and
`run_decides` says that none of these second checks can fail, and that the script
never panics, provided the rent it computes fits in 64 bits.

## The two halves

What a verifier may assume is established by the root, `routed_of_rootVerify`, from the routing
table.  What can go wrong from there on is the content of `Opticrum.Contract.Faults`, and
`yields_branchVerify` applies it to each verifier under what it is handed.

The hypothesis is about the inspected cell alone.  Where it fails, the script does panic, and
rejects by that; `Inspects.rentFits_iff` says what it comes to for one cell and one tip.
-/

namespace Opticrum

open Rust Ckb Outcome

/-- What the verifier the root has named is handed. -/
structure Routed (env : Env) (ctx : Context) (name : VerifierName) : Prop where
  oldOrder : name = .orderCancel ∨ name = .orderMatch → ∃ x, ctx.expectOldOrder = .ok x
  oldMatch : name = .matchUpdate ∨ name = .matchDestroy → ∃ x, ctx.expectOldMatch = .ok x
  newMatch : name = .orderMatch ∨ name = .matchUpdate → ∃ x, ctx.expectNewMatch = .ok x
  sameArgs : name = .matchUpdate → ∃ a d d',
    ctx.expectOldMatch = .ok (a, d) ∧ ctx.expectNewMatch = .ok (a, d')
  rent : name = .matchUpdate ∨ name = .matchDestroy →
    ctx.oldState.liquidityRent env ≠ fail .unexpectedBranch

section Expect

variable {ctx : Context} {st : OpticrumState}

/-- The old state is what the verifier of an order expects. -/
theorem expectOldOrder_eq {a : OrderArgs} {d : OrderData}
    (h : ctx.oldState.branch = .orderCell a d) : ctx.expectOldOrder = .ok (a, d) := by
  rw [Context.expectOldOrder, h]

theorem expectOldMatch_eq {a : MatchArgs} {d : MatchData}
    (h : ctx.oldState.branch = .matchCell a d) : ctx.expectOldMatch = .ok (a, d) := by
  rw [Context.expectOldMatch, h]

theorem expectNewMatch_eq {a : MatchArgs} {d : MatchData} (hnew : ctx.newState = some st)
    (h : st.branch = .matchCell a d) : ctx.expectNewMatch = .ok (a, d) := by
  rw [Context.expectNewMatch, hnew]
  simp only [h]

end Expect

/-- The rent of a Match state never ends in the error of another branch, whether or
not it fits. -/
theorem liquidityRent_ne_unexpectedBranch {env : Env} {st : OpticrumState} {a : MatchArgs}
    {d : MatchData} (hb : st.branch = .matchCell a d) :
    st.liquidityRent env ≠ fail .unexpectedBranch := by
  have hyields : (st.liquidityRent env).Yields
      (· ≠ .error (.opticrum .unexpectedBranch)) fun _ => True := by
    rw [OpticrumState.liquidityRent, hb]
    refine (yields_baseBlock.mono (fun _ => Foreseen.ne_unexpectedBranch)
      fun _ h => h).bind fun _ _ => ?_
    refine ((yields_loadHeaderBlockNumber.mono (fun _ => Foreseen.ne_panic)
      fun _ h => h).mapErr (by simp)).bind fun _ _ => ?_
    exact yields_checkedMul (.inr (by simp))
  intro h
  rw [h] at hyields
  exact hyields rfl

section Routed

variable {env : Env} {ctx : Context} {name : VerifierName}

/-- The routing table and the expectations of the four verifiers agree. -/
theorem routed_of_rootVerify (h : rootVerify env = .ok (ctx, name)) : Routed env ctx name := by
  obtain ⟨c, rest, hgroup⟩ := exists_groupInputs_of_rootVerify h
  obtain ⟨-, -, hname⟩ := (rootVerify_eq_ok_iff hgroup).mp h
  cases name with
  | orderCancel =>
      obtain ⟨⟨a, d, hb⟩, -⟩ := compare_eq_orderCancel_iff.mp hname
      constructor <;> simp [expectOldOrder_eq hb]
  | orderMatch =>
      obtain ⟨a, d, st, ma, md, hb, hst, hsb, -, -⟩ := compare_eq_orderMatch_iff.mp hname
      constructor <;> simp [expectOldOrder_eq hb, expectNewMatch_eq hst hsb]
  | matchUpdate =>
      obtain ⟨a, d, st, d', hb, hst, hsb, -⟩ := compare_eq_matchUpdate_iff.mp hname
      constructor <;>
        simp [expectOldMatch_eq hb, expectNewMatch_eq hst hsb,
          liquidityRent_ne_unexpectedBranch hb]
  | matchDestroy =>
      obtain ⟨⟨a, d, hb⟩, -⟩ := compare_eq_matchDestroy_iff.mp hname
      constructor <;> simp [expectOldMatch_eq hb, liquidityRent_ne_unexpectedBranch hb]

/-- The verifier the root names decides. -/
theorem yields_branchVerify [ScriptHash] (hfits : RentFits env)
    (h : rootVerify env = .ok (ctx, name)) :
    (branchVerify env ctx name).Yields Foreseen fun _ => True := by
  obtain ⟨c, rest, hgroup⟩ := exists_groupInputs_of_rootVerify h
  obtain ⟨hold, -, hname⟩ := (rootVerify_eq_ok_iff hgroup).mp h
  cases name with
  | orderCancel =>
      obtain ⟨⟨a, d, hb⟩, -⟩ := compare_eq_orderCancel_iff.mp hname
      exact yields_orderCancelVerify hb
  | orderMatch =>
      obtain ⟨a, d, st, ma, md, hb, hst, hsb, -, -⟩ := compare_eq_orderMatch_iff.mp hname
      exact yields_orderMatchVerify hb hst hsb
  | matchUpdate =>
      obtain ⟨a, d, st, d', hb, hst, hsb, hx⟩ := compare_eq_matchUpdate_iff.mp hname
      exact yields_matchUpdateVerify hfits hgroup hold hb hst hsb hx
  | matchDestroy =>
      obtain ⟨⟨a, d, hb⟩, -⟩ := compare_eq_matchDestroy_iff.mp hname
      exact yields_matchDestroyVerify hfits hgroup hold hb

/-- The whole script: the root verifier ends in a foreseen fault or hands a pair of states to
the verifier it belongs to, and that one stays in the class as well. -/
theorem yields_run [ScriptHash] (hfits : RentFits env) :
    (run env).Yields Foreseen fun _ => True :=
  yields_rootVerify.remember.bind fun _ ⟨_, hroot⟩ => yields_branchVerify hfits hroot

end Routed

/-- **Decision.** As long as the rent of the inspected cell fits in 64 bits, the script accepts
or returns an error code, never that of a defensive branch, and the verifier the root names is
handed what it expects.

It is put together from what each function can end in: every call of a verifier is behind a
routing that has looked at the states it will look at. -/
theorem run_decides [ScriptHash] (env : Env) (hfits : RentFits env) :
    (run env = .ok ⟨⟩ ∨ ∃ e, run env = .err e ∧ e ≠ .opticrum .unexpectedBranch ∧
      e ≠ .opticrum .badMatchUpdate) ∧
    ∀ ctx name, rootVerify env = .ok (ctx, name) → Routed env ctx name := by
  refine ⟨?_, fun ctx name => routed_of_rootVerify⟩
  cases h : run env with
  | ok u => exact .inl rfl
  | error f =>
      have hrun : Foreseen f := (yields_iff.mp (yields_run hfits)).2 f h
      cases f with
      | panic => exact absurd rfl hrun.ne_panic
      | error e =>
          refine .inr ⟨e, rfl, ?_, ?_⟩
          · rintro rfl
            exact hrun.ne_unexpectedBranch rfl
          · rintro rfl
            exact hrun.ne_badMatchUpdate rfl

/-- The condition, at a script that inspects a Match cell. -/
theorem Inspects.rentFits_iff {env : Env} {c : LiveCell} {tip : ℕ} (h : Inspects env c tip)
    {a : MatchArgs} {d : MatchData} (hc : IsMatch c.toCell a d) :
    RentFits env ↔ rentAt c d tip < 2 ^ 64 := by
  obtain ⟨rest, hgroup⟩ := h.group
  constructor
  · intro hfits
    exact hfits c rest a d tip hgroup hc h.isTip
  · intro hfits c' rest' a' d' tip' hgroup' hc' htip'
    obtain ⟨rfl, rfl⟩ := List.cons.inj (hgroup.symm.trans hgroup')
    obtain ⟨rfl, rfl⟩ := hc.unique hc'
    obtain rfl := Option.some.inj (h.isTip.symm.trans htip')
    exact hfits

namespace Market

/-- The Match cell of the market, inspected 50 blocks after its creation. -/
theorem run_inspect_decides :
    let env := inspect (matchCell ⟨0, 3, 0⟩ none 100000 0 1000).toLiveCell (headerAt 1050)
    (run env = .ok ⟨⟩ ∨ ∃ e, run env = .err e ∧ e ≠ .opticrum .unexpectedBranch ∧
      e ≠ .opticrum .badMatchUpdate) ∧
    ∀ ctx name, rootVerify env = .ok (ctx, name) → Routed env ctx name := by
  refine run_decides _ (((inspects_inspect _ _).rentFits_iff isMatch_matchOutput).mpr ?_)
  rw [matchCell_rentAt (by decide), headerAt_number (by decide)]
  decide

end Market

end Opticrum
