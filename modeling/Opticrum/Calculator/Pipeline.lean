import Opticrum.Calculator.Completion

/-!
# Pipelines

The binaries do not send what one builder lists: they chain instructions.  One of the
framework adds the deps that the cells of a party are unlocked with, the builder's comes
before or after it, and one of the framework balances the fee and signs.

## Behind other deps

A builder's instruction is then run on a skeleton that has deps already.  Nothing about
builders has to be proved again for that: a framework that is run behind some deps, and
whose result is looked at without them, documents the same as before
(`Documented.behindDeps`), and the run on the skeleton with the deps is the run without
them, the deps put back (`runInstruction_behind`).  The deps must be groups, so that no
operation takes one of them for its own, and no operation may name a dep by its position
from the front.

## Stages

`DocumentedStages` is about the two instructions that are not the builder's.  What it allows
them is what `Completes` allows, and `DocumentedStages.completes` says so: the cells and the
change are under the lock of one address, which is not the contract and, where it matters, not
the other party.
-/

namespace Opticrum

open Rust Ckb

/-! ## Pipelines -/

/-- What an instruction does to a skeleton.  It may fail, and then the pipeline has failed. -/
abbrev Stage := TransactionSkeleton → Outcome String TransactionSkeleton

/-- `TransactionCalculator::new(instructions).new_skeleton(&rpc)`. -/
def newSkeleton (stages : List Stage) : Outcome String TransactionSkeleton :=
  stages.foldlM (fun skeleton stage => stage skeleton) .new

/-- A pipeline of three stages is built stage by stage. -/
theorem newSkeleton_eq_ok_iff {first second third : Stage} {sk : TransactionSkeleton} :
    newSkeleton [first, second, third] = .ok sk ↔
      ∃ sk₁, first .new = .ok sk₁ ∧ ∃ sk₂, second sk₁ = .ok sk₂ ∧ third sk₂ = .ok sk := by
  simp only [newSkeleton, List.foldlM_cons, List.foldlM_nil, Outcome.bind_eq_ok_iff,
    Outcome.pure_eq_ok, Except.ok.injEq, exists_eq_right]

/-- What is documented of the other instructions of a pipeline: the one that adds the dep of the
system lock adds a dep group; the one that balances appends cells of the address to the inputs
and outputs under its lock, and may add deps.  Neither touches what the builder has listed. -/
structure DocumentedStages (address : Address) (prepare balance : Stage) : Prop where
  prepare : ∀ {sk sk'}, prepare sk = .ok sk' →
    ∃ group, group.dep.depType = .depGroup ∧
      sk' = { sk with cellDeps := sk.cellDeps ++ [group] }
  balance : ∀ {sk sk'}, balance sk = .ok sk' →
    ∃ party change deps headers, (∀ p ∈ party, p.lock = address.script) ∧
      (∀ o ∈ change, o.lock = address.script) ∧
      sk'.toTransaction = ⟨sk.inputs ++ party, sk.outputs ++ change, sk.cellDeps ++ deps,
        sk.headerDeps ++ headers⟩

/-- A balanced draft is a completed one. -/
theorem DocumentedStages.completes [ScriptHash] {codeHash lockHash : Byte32}
    {avoid : List Byte32} {address : Address} {prepare balance : Stage}
    (doc : DocumentedStages address prepare balance) (hacts : ActsFor codeHash address lockHash)
    (havoid : lockHash ∉ avoid) {sk sk' : TransactionSkeleton} (h : balance sk = .ok sk') :
    Completes codeHash avoid sk.toTransaction sk'.toTransaction := by
  obtain ⟨party, change, deps, headers, hparty, hchange, heq⟩ := doc.balance h
  refine ⟨⟨party, by rw [heq], fun p hp => ⟨?_, ?_⟩⟩, ⟨change, by rw [heq], fun o ho => ?_⟩,
    ⟨deps, by rw [heq]⟩, ⟨headers, by rw [heq]⟩⟩
  · rw [hparty p hp, hacts.ordinary]
  · rwa [hparty p hp, hacts.hash]
  · rw [hchange o ho, hacts.ordinary]

/-! ## Behind other deps -/

section Behind

variable {rpc : RPC}
  {runBasic : BasicOperation → TransactionSkeleton → Outcome String TransactionSkeleton}
  {pre : List ResolvedDep} {sk sk' : TransactionSkeleton}

/-- The skeleton with deps before its own. -/
def TransactionSkeleton.behind (sk : TransactionSkeleton) (pre : List ResolvedDep) :
    TransactionSkeleton := { sk with cellDeps := pre ++ sk.cellDeps }

/-- The skeleton without its first deps. -/
def TransactionSkeleton.dropDeps (sk : TransactionSkeleton) (n : ℕ) : TransactionSkeleton :=
  { sk with cellDeps := sk.cellDeps.drop n }

/-- An operation that names a dep by its position, and not as the last one.  Put behind other
deps it would name another entry. -/
def BasicOperation.namesDep : BasicOperation → Bool
  | .addHeaderDepByCellDepIndex i => i ≠ usizeMax
  | _ => false

/-- The operations of the calculator itself name no dep by its position. -/
def Operation.namesDep : Operation → Bool
  | .basic operation => operation.namesDep
  | _ => false

/-- The framework run behind the deps `pre`, looked at without them.  This is again a framework,
and it documents what the other one documents. -/
def behindDeps (pre : List ResolvedDep)
    (runBasic : BasicOperation → TransactionSkeleton → Outcome String TransactionSkeleton)
    (operation : BasicOperation) (sk : TransactionSkeleton) :
    Outcome String TransactionSkeleton :=
  if operation.namesDep then .err "names a dep by its position"
  else do
    let sk ← runBasic operation (sk.behind pre)
    .ok (sk.dropDeps pre.length)

/-- It runs where the framework runs on the longer skeleton, and shows what comes behind the
deps in front. -/
theorem behindDeps_eq_ok_iff {operation : BasicOperation} :
    behindDeps pre runBasic operation sk = .ok sk' ↔
      operation.namesDep = false ∧
        ∃ sk₁, runBasic operation (sk.behind pre) = .ok sk₁ ∧ sk₁.dropDeps pre.length = sk' := by
  unfold behindDeps
  cases operation.namesDep with
  | true => simp
  | false => simp [Outcome.bind_eq_ok_iff]

/-- What is dropped again leaves the rest. -/
theorem dropDeps_toTransaction {t : Transaction} {deps : List ResolvedDep}
    (h : sk.toTransaction = { t with cellDeps := pre ++ deps }) :
    (sk.dropDeps pre.length).toTransaction = { t with cellDeps := deps } := by
  simp [TransactionSkeleton.dropDeps, h]

/-- Among groups there is no code dep, so adding one goes behind them. -/
theorem Adds.behind (hpre : ∀ dep ∈ pre, dep.dep.depType = .depGroup) {old new : List ResolvedDep}
    {c : LiveCell} (h : Adds (pre ++ old) (.code c) new) :
    ∃ new', new = pre ++ new' ∧ Adds old (.code c) new' := by
  rcases h with rfl | ⟨hmem, rfl⟩
  · exact ⟨old ++ [.code c], List.append_assoc _ _ _, .inl rfl⟩
  · refine ⟨old, rfl, .inr ⟨(List.mem_append.mp hmem).resolve_left fun hgroup => ?_, rfl⟩⟩
    exact absurd (hpre _ hgroup) (by simp [ResolvedDep.code])

/-- **Documentation behind deps.** -/
theorem Documented.behindDeps (doc : Documented rpc runBasic)
    (hpre : ∀ dep ∈ pre, dep.dep.depType = .depGroup) :
    Documented rpc (behindDeps pre runBasic) where
  addCellDep := by
    intro name txHash index withData sk sk' h
    obtain ⟨-, sk₁, hrun, rfl⟩ := behindDeps_eq_ok_iff.mp h
    obtain ⟨c, deps, hc, hdeps, h⟩ := doc.addCellDep hrun
    obtain ⟨deps', rfl, hdeps'⟩ := hdeps.behind hpre
    exact ⟨c, deps', hc, hdeps', dropDeps_toTransaction h⟩
  addCellDepByTypeId := by
    intro name typeArgs withData sk sk' h
    obtain ⟨-, sk₁, hrun, rfl⟩ := behindDeps_eq_ok_iff.mp h
    obtain ⟨c, deps, hc, hdeps, h⟩ := doc.addCellDepByTypeId hrun
    obtain ⟨deps', rfl, hdeps'⟩ := hdeps.behind hpre
    exact ⟨c, deps', hc, hdeps', dropDeps_toTransaction h⟩
  addHeaderDepByBlockNumber := by
    intro n sk sk' h
    obtain ⟨-, sk₁, hrun, rfl⟩ := behindDeps_eq_ok_iff.mp h
    obtain ⟨header, headers, hheader, hheaders, h⟩ := doc.addHeaderDepByBlockNumber hrun
    exact ⟨header, headers, hheader, hheaders,
      dropDeps_toTransaction (t := { sk.toTransaction with headerDeps := headers }) h⟩
  addHeaderDepByCellDepIndex := by
    intro i sk sk' c h hc
    obtain ⟨hnames, sk₁, hrun, rfl⟩ := behindDeps_eq_ok_iff.mp h
    -- the last dep is also the last behind the others
    obtain rfl : i = usizeMax := by simpa [BasicOperation.namesDep] using hnames
    rw [entryAt_usizeMax] at hc
    have hlast : entryAt (sk.behind pre).cellDeps usizeMax = some (.code c) := by
      rw [entryAt_usizeMax, TransactionSkeleton.behind, List.getLast?_append, hc, Option.some_or]
    obtain ⟨headers, hheaders, h⟩ := doc.addHeaderDepByCellDepIndex hrun hlast
    exact ⟨headers, hheaders,
      dropDeps_toTransaction (t := { sk.toTransaction with headerDeps := headers }) h⟩
  addHeaderDepByInputIndex := by
    intro i sk sk' c h hc
    obtain ⟨-, sk₁, hrun, rfl⟩ := behindDeps_eq_ok_iff.mp h
    obtain ⟨headers, hheaders, h⟩ := doc.addHeaderDepByInputIndex hrun hc
    exact ⟨headers, hheaders,
      dropDeps_toTransaction (t := { sk.toTransaction with headerDeps := headers }) h⟩
  addInputCellByAddress := by
    intro address sk sk' h
    obtain ⟨-, sk₁, hrun, rfl⟩ := behindDeps_eq_ok_iff.mp h
    obtain ⟨cells, hne, hlock, h⟩ := doc.addInputCellByAddress hrun
    exact ⟨cells, hne, hlock,
      dropDeps_toTransaction (t := { sk.toTransaction with inputs := sk.inputs ++ cells }) h⟩
  addInputCellByOutPoint := by
    intro txHash index since sk sk' h
    obtain ⟨-, sk₁, hrun, rfl⟩ := behindDeps_eq_ok_iff.mp h
    obtain ⟨c, hc, h⟩ := doc.addInputCellByOutPoint hrun
    exact ⟨c, hc, fun hnew =>
      dropDeps_toTransaction (t := { sk.toTransaction with inputs := sk.inputs ++ [c] }) (h hnew)⟩
  addOutputCellByInputIndex := by
    intro i data lockScript typeScript adjustCapacity sk sk' c h hc
    obtain ⟨-, sk₁, hrun, rfl⟩ := behindDeps_eq_ok_iff.mp h
    obtain ⟨capacity, hcapacity, h⟩ := doc.addOutputCellByInputIndex hrun hc
    exact ⟨capacity, hcapacity, dropDeps_toTransaction (t := { sk.toTransaction with
      outputs := sk.outputs ++
        [copiedOutput rpc c.toCell data lockScript typeScript capacity] }) h⟩

/-- What was dropped is put back. -/
theorem dropDeps_behind (h : pre <+: sk.cellDeps) : (sk.dropDeps pre.length).behind pre = sk := by
  obtain ⟨rest, hrest⟩ := h
  simp only [TransactionSkeleton.behind, TransactionSkeleton.dropDeps, ← hrest, List.drop_left]
  rw [hrest]

/-- One operation behind the deps. -/
theorem run_behind (hkeeps : KeepsDeps runBasic) {operation : Operation}
    (hnames : operation.namesDep = false)
    (h : operation.run rpc runBasic (sk.behind pre) = .ok sk') :
    ∃ sk₁, operation.run rpc (behindDeps pre runBasic) sk = .ok sk₁ ∧ sk' = sk₁.behind pre := by
  have hbasic : ∀ {operation}, BasicOperation.namesDep operation = false →
      runBasic operation (sk.behind pre) = .ok sk' →
        ∃ sk₁, behindDeps pre runBasic operation sk = .ok sk₁ ∧ sk' = sk₁.behind pre := by
    intro operation hnames h
    have hprefix : pre <+: sk'.cellDeps := (List.prefix_append _ _).trans (hkeeps _ _ _ h)
    exact ⟨_, behindDeps_eq_ok_iff.mpr ⟨hnames, sk', h, rfl⟩, (dropDeps_behind hprefix).symm⟩
  cases operation with
  | basic operation => exact hbasic hnames h
  | addOpticrumContractCelldep =>
      obtain ⟨typeArgs, htypeArgs, h⟩ := Outcome.bind_eq_ok_iff.mp h
      obtain ⟨sk₁, h, hsk'⟩ := hbasic rfl h
      exact ⟨sk₁, Outcome.bind_eq_ok_iff.mpr ⟨typeArgs, htypeArgs, h⟩, hsk'⟩
  | setOutputWitness outputIndex data =>
      obtain rfl := Except.ok.inj h
      exact ⟨_, rfl, rfl⟩

/-- **Runs behind deps.**  The induction is on the operations. -/
theorem runInstruction_behind (hkeeps : KeepsDeps runBasic) {instruction : Instruction}
    (hnames : ∀ operation ∈ instruction, operation.namesDep = false)
    (h : runInstruction rpc runBasic instruction (sk.behind pre) = .ok sk') :
    ∃ sk₁, runInstruction rpc (behindDeps pre runBasic) instruction sk = .ok sk₁ ∧
      sk' = sk₁.behind pre := by
  induction instruction generalizing sk with
  | nil => exact ⟨sk, rfl, (runInstruction_nil_eq_ok_iff.mp h).symm⟩
  | cons operation operations ih =>
      obtain ⟨hfirst, hrest⟩ := List.forall_mem_cons.mp hnames
      obtain ⟨sk₁, h₁, h₂⟩ := runInstruction_cons_eq_ok_iff.mp h
      obtain ⟨sk₂, hrun, rfl⟩ := run_behind hkeeps hfirst h₁
      obtain ⟨sk₃, hrun', hsk'⟩ := ih hrest h₂
      exact ⟨sk₃, runInstruction_cons_eq_ok_iff.mpr ⟨sk₂, hrun, hrun'⟩, hsk'⟩

end Behind

/-! ## The builders name no dep by its position -/

section Names

variable {party : Address} {info : MatchInfo} {tip : U64}

/-- A cancellation names no dep by its position. -/
theorem namesDep_cancelOrder {info : OrderInfo} :
    ∀ operation ∈ cancelOrder party info, operation.namesDep = false := by
  unfold cancelOrder
  cases info.xudt with
  | none => simp [Operation.namesDep, BasicOperation.namesDep, inputAt]
  | some x => simp [Operation.namesDep, BasicOperation.namesDep, inputAt]

/-- A match names the channel as the last one, and that stays so. -/
theorem namesDep_matchOrder {info : OrderInfo} {matchArgs : MatchArgs} :
    ∀ operation ∈ matchOrder party info matchArgs, operation.namesDep = false := by
  simp [matchOrder, Operation.namesDep, BasicOperation.namesDep, inputAt, fiberChannelCelldep]

/-- A destruction names none. -/
theorem namesDep_destroyMatch :
    ∀ operation ∈ destroyMatch party info tip, operation.namesDep = false := by
  intro operation hmem
  simp only [destroyMatch, List.mem_append] at hmem
  rcases hmem with (hmem | hmem) | hmem
  · revert operation
    simp [Operation.namesDep, BasicOperation.namesDep, inputAt]
  · split at hmem
    · rw [List.mem_singleton.mp hmem]
      rfl
    · cases hmem
  · revert operation
    cases info.xudt with
    | none => simp [Operation.namesDep, BasicOperation.namesDep]
    | some x => simp [Operation.namesDep, BasicOperation.namesDep]

/-- Neither does an extraction, on either of its paths. -/
theorem namesDep_extractRent {ε : Type} {instruction : Instruction}
    (h : (extractRent party info tip : Outcome ε _) = .ok instruction) :
    ∀ operation ∈ instruction, operation.namesDep = false := by
  obtain ⟨exhausted, -, h⟩ := Outcome.bind_eq_ok_iff.mp h
  split at h
  · obtain rfl := Except.ok.inj h
    exact namesDep_destroyMatch
  · obtain ⟨rent, -, h⟩ := Outcome.bind_eq_ok_iff.mp h
    intro operation hmem
    cases hxudt : info.xudt with
    | none =>
        rw [hxudt] at h
        obtain rfl := Except.ok.inj h
        revert operation
        split <;> simp [Operation.namesDep, BasicOperation.namesDep, inputAt, fiberChannelCelldep]
    | some x =>
        rw [hxudt] at h
        obtain rfl := Except.ok.inj h
        revert operation
        split <;> simp [Operation.namesDep, BasicOperation.namesDep, inputAt, fiberChannelCelldep]

/-- Nor an update of the buyer. -/
theorem namesDep_updateMatchBuyer {ε : Type} {newXudtAmount : U128} {delta : I64}
    {instruction : Instruction}
    (h : (updateMatchBuyer party info newXudtAmount delta : Outcome ε _) = .ok instruction) :
    ∀ operation ∈ instruction, operation.namesDep = false := by
  obtain ⟨adjust, -, h⟩ := Outcome.bind_eq_ok_iff.mp h
  obtain rfl := Except.ok.inj h
  simp [Operation.namesDep, BasicOperation.namesDep, inputAt]

end Names

end Opticrum
