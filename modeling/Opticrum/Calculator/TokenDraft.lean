import Opticrum.Calculator.Draft
import Opticrum.Contract.Cells

/-!
# Drafts with tokens

What the builders do with the tokens of the cell they consume.  Only the inputs and
the outputs of the draft matter here: `Holds` says what they are, and there is one
rule for each kind of operation that says how it moves them.

The builders run on any skeleton that has no cells yet; deps may be there.

## Assigned amounts

`Assigns` says that a draft has one output, under the token's script, and how much it holds.  A
builder keeps the type script of the cell it consumes and writes the amount into the data, in 16
bytes for a cell of a party and at the front of the 32 bytes of a match.  The tokens that an
extraction takes are in no output of the draft; they are for the instructions behind it to
place.
-/

namespace Opticrum

open Rust Ckb

/-- The cells of a draft.  The rules below say how one operation moves them, and leave deps and
headers out. -/
structure Holds (sk : TransactionSkeleton) (inputs : List LiveCell) (outputs : List Cell) :
    Prop where
  inputs : sk.inputs = inputs
  outputs : sk.outputs = outputs

section Rules

variable {rpc : RPC}
  {runBasic : BasicOperation → TransactionSkeleton → Outcome String TransactionSkeleton}
  {sk sk' : TransactionSkeleton} {c : LiveCell} {inputs : List LiveCell} {outputs : List Cell}

/-- What moves no cell keeps them. -/
theorem Holds.frame (hsk : Holds sk inputs outputs) (hinputs : sk'.inputs = sk.inputs)
    (houtputs : sk'.outputs = sk.outputs) : Holds sk' inputs outputs :=
  ⟨hinputs.trans hsk.inputs, houtputs.trans hsk.outputs⟩

/-- An operation that is listed on a condition keeps the cells when it does so itself. -/
theorem Holds.ite {p : Prop} [Decidable p] {operation : Operation}
    (hsk : Holds sk inputs outputs)
    (h : runInstruction rpc runBasic (if p then [operation] else []) sk = .ok sk')
    (hkeeps : operation.run rpc runBasic sk = .ok sk' → Holds sk' inputs outputs) :
    Holds sk' inputs outputs := by
  split at h
  · exact hkeeps (runInstruction_singleton_eq_ok_iff.mp h)
  · obtain rfl := runInstruction_nil_eq_ok_iff.mp h
    exact hsk

/-- The contract's dep moves neither inputs nor outputs. -/
theorem Documented.holds_contract (doc : Documented rpc runBasic) (hsk : Holds sk inputs outputs)
    (h : Operation.addOpticrumContractCelldep.run rpc runBasic sk = .ok sk') :
    Holds sk' inputs outputs := by
  obtain ⟨contract, deps, -, -, h⟩ := doc.addOpticrumContractCelldep h
  exact hsk.frame (by rw [h]) (by rw [h])

/-- Neither does the channel's. -/
theorem Documented.holds_channel (doc : Documented rpc runBasic) (hsk : Holds sk inputs outputs)
    {o : OutPoint} (h : (fiberChannelCelldep o).run rpc runBasic sk = .ok sk') :
    Holds sk' inputs outputs := by
  obtain ⟨channel, deps, -, -, h⟩ := doc.addCellDep h
  exact hsk.frame (by rw [h]) (by rw [h])

/-- A header dep asked for by its number moves neither. -/
theorem Documented.holds_header (doc : Documented rpc runBasic) (hsk : Holds sk inputs outputs)
    {n : U64} (h : runBasic (.addHeaderDepByBlockNumber n) sk = .ok sk') :
    Holds sk' inputs outputs := by
  obtain ⟨header, headers, -, -, h⟩ := doc.addHeaderDepByBlockNumber h
  exact hsk.frame (by rw [h]) (by rw [h])

/-- Nor does one asked for by the input whose block it is. -/
theorem Documented.holds_inputHeader (doc : Documented rpc runBasic)
    (hsk : Holds sk inputs outputs) {i : ℕ} (hc : entryAt inputs i = some c)
    (h : runBasic (.addHeaderDepByInputIndex i) sk = .ok sk') : Holds sk' inputs outputs := by
  rw [← hsk.inputs] at hc
  obtain ⟨headers, -, h⟩ := doc.addHeaderDepByInputIndex h hc
  exact hsk.frame (by rw [h]) (by rw [h])

/-- The dep of the token standard moves neither. -/
theorem DocumentedOutputs.holds_xudtDep (doc : DocumentedOutputs rpc runBasic)
    (hsk : Holds sk inputs outputs) (h : runBasic .addXudtCelldep sk = .ok sk') :
    Holds sk' inputs outputs := by
  obtain ⟨deps, h⟩ := doc.addXudtCelldep h
  exact hsk.frame (by rw [h]) (by rw [h])

/-- Nor does the header of the block of a cell dep. -/
theorem DocumentedTokens.holds_cellDepHeader (doc : DocumentedTokens rpc runBasic)
    (hsk : Holds sk inputs outputs) {i : ℕ}
    (h : runBasic (.addHeaderDepByCellDepIndex i) sk = .ok sk') : Holds sk' inputs outputs := by
  obtain ⟨hinputs, houtputs⟩ := doc.headerDepMovesNothing h
  exact hsk.frame hinputs houtputs

/-- The cell of the contract is put behind the inputs there are.  It has not been spent before
in the draft, so it is no duplicate. -/
theorem Documented.holds_inputAt (doc : Documented rpc runBasic) (hsk : Holds sk inputs outputs)
    {p : OutPoint} (hc : rpc.liveCell p.packed = some c) (hnew : c ∉ inputs)
    (h : (inputAt p).run rpc runBasic sk = .ok sk') : Holds sk' (inputs ++ [c]) outputs := by
  rw [← hsk.inputs] at hnew
  have h := doc.inputAt_draft hc hnew h
  rw [← hsk.inputs, ← hsk.outputs]
  exact ⟨by rw [h], by rw [h]⟩

/-- The cells of the party come after those that are there, and are plain unless they
are there already. -/
theorem DocumentedTokens.holds_party (doc : DocumentedTokens rpc runBasic)
    (hsk : Holds sk inputs outputs) {address : Address}
    (h : runBasic (.addInputCellByAddress address) sk = .ok sk') :
    ∃ party, (∀ p ∈ party, p ∈ inputs ∨ p.type_ = none) ∧ Holds sk' (inputs ++ party) outputs := by
  have hplain := doc.plainInputs h
  obtain ⟨party, -, -, h⟩ := doc.addInputCellByAddress h
  rw [← hsk.inputs, ← hsk.outputs]
  refine ⟨party, fun p hp => hplain p ?_, by rw [h], by rw [h]⟩
  rw [h]
  exact List.mem_append_right _ hp

/-- An output copied from a cell with a type script keeps it. -/
theorem Documented.holds_copy (doc : Documented rpc runBasic) (hsk : Holds sk inputs outputs)
    {i : ℕ} {data : Bytes} {lockScript : Option ScriptEx} {adjust : CapacityAdjustment}
    (hc : entryAt inputs i = some c)
    (h : runBasic (.addOutputCellByInputIndex i (some data) lockScript none adjust) sk = .ok sk') :
    ∃ o, o.type_ = c.type_ ∧ o.data = data ∧ Holds sk' inputs (outputs ++ [o]) := by
  rw [← hsk.inputs] at hc
  obtain ⟨capacity, -, h⟩ := doc.addOutputCellByInputIndex h hc
  rw [← hsk.inputs, ← hsk.outputs]
  refine ⟨copiedOutput rpc c.toCell (some data) lockScript none capacity, rfl, rfl, ?_⟩
  exact ⟨by rw [h], by rw [h]⟩

/-- An output of the draft's own has the type script and the data asked for. -/
theorem DocumentedOutputs.holds_output (doc : DocumentedOutputs rpc runBasic)
    (hsk : Holds sk inputs outputs) {lockScript : ScriptEx} {s : Script} {data : Bytes}
    {capacity : U64}
    (h : runBasic (.addOutputCell lockScript (some (.script s)) data capacity false false) sk =
      .ok sk') :
    ∃ o, o.type_ = some s ∧ o.data = data ∧ Holds sk' inputs (outputs ++ [o]) := by
  obtain ⟨held, h⟩ := doc.addOutputCell h
  rw [← hsk.inputs, ← hsk.outputs]
  exact ⟨_, rfl, rfl, by rw [h], by rw [h]⟩

end Rules

/-! ## One lemma for each builder -/

section Builders

variable {rpc : RPC}
  {runBasic : BasicOperation → TransactionSkeleton → Outcome String TransactionSkeleton}
  {sk sk' : TransactionSkeleton} {c : LiveCell} {x : Xudt}

/-- The draft has one output, which holds this amount of the tokens. -/
def Assigns (sk' : TransactionSkeleton) (s : Script) (amount : U128) : Prop :=
  ∃ o, sk'.outputs = [o] ∧ o.type_ = some s ∧ xudtAmountOf o.data = amount

/-- Sixteen bytes of data are read as the amount they were written from. -/
theorem xudtAmountOf_u128ToLeBytes (amount : U128) :
    xudtAmountOf (u128ToLeBytes amount).toList = amount := by
  have htake : (u128ToLeBytes amount).toList.take xudtAmountLen = (u128ToLeBytes amount).toList :=
    List.take_of_length_le (by rw [Vector.length_toList])
  rw [xudtAmountOf, htake]
  exact u128FromLeBytes_u128ToLeBytes amount

/-- And the data of a match as the amount in its first field. -/
theorem xudtAmountOf_toBytes (d : MatchData) : xudtAmountOf d.toBytes.toList = d.xudtAmount := by
  have htake : d.toBytes.toList.take xudtAmountLen = (u128ToLeBytes d.xudtAmount).toList := by
    rw [MatchData.toBytes, Vector.toList_append, Vector.toList_append, List.append_assoc]
    exact List.take_left' (Vector.length_toList)
  rw [xudtAmountOf, htake]
  exact u128FromLeBytes_u128ToLeBytes d.xudtAmount

/-- A cancelled order returns its tokens. -/
theorem DocumentedTokens.cancelOrder_assigns (doc : DocumentedTokens rpc runBasic)
    {buyer : Address} {info : OrderInfo} (hsk : Holds sk [] []) (hxudt : info.xudt = some x)
    (hc : rpc.liveCell info.orderOutpoint.packed = some c)
    (h : runInstruction rpc runBasic (cancelOrder buyer info) sk = .ok sk') :
    Assigns sk' x.typeScript x.amount := by
  simp only [cancelOrder, hxudt, List.cons_append, List.nil_append, runInstruction_cons_eq_ok_iff,
    runInstruction_nil_eq_ok_iff] at h
  obtain ⟨sk₁, h₁, sk₂, h₂, sk₃, h₃, sk₄, h₄, sk₅, h₅, rfl⟩ := h
  have hsk₁ := doc.holds_contract hsk h₁
  have hsk₂ := doc.holds_inputAt hsk₁ hc List.not_mem_nil h₂
  obtain ⟨party, -, hsk₃⟩ := doc.holds_party hsk₂ h₃
  have hsk₄ := doc.holds_xudtDep hsk₃ h₄
  obtain ⟨o, htype, hdata, hsk₅⟩ := doc.holds_output hsk₄ h₅
  exact ⟨o, hsk₅.outputs, htype, by rw [hdata, xudtAmountOf_u128ToLeBytes]⟩

/-- A match takes over the tokens of its order. -/
theorem DocumentedTokens.matchOrder_assigns (doc : DocumentedTokens rpc runBasic)
    {seller : Address} {info : OrderInfo} {matchArgs : MatchArgs} (hsk : Holds sk [] [])
    (hxudt : info.xudt = some x) (hc : rpc.liveCell info.orderOutpoint.packed = some c)
    (htype : c.type_ = some x.typeScript)
    (h : runInstruction rpc runBasic (matchOrder seller info matchArgs) sk = .ok sk') :
    Assigns sk' x.typeScript x.amount := by
  simp only [matchOrder, hxudt, runInstruction_cons_eq_ok_iff, runInstruction_nil_eq_ok_iff] at h
  obtain ⟨sk₁, h₁, sk₂, h₂, sk₃, h₃, sk₄, h₄, sk₅, h₅, sk₆, h₆, sk₇, h₇, rfl⟩ := h
  have hsk₁ := doc.holds_contract hsk h₁
  have hsk₂ := doc.holds_channel hsk₁ h₂
  have hsk₃ := doc.holds_cellDepHeader hsk₂ h₃
  have hsk₄ := doc.holds_inputAt hsk₃ hc List.not_mem_nil h₄
  have hsk₅ := doc.holds_inputHeader hsk₄ (c := c) (by rw [entryAt_usizeMax]; rfl) h₅
  obtain ⟨party, -, hsk₆⟩ := doc.holds_party hsk₅ h₆
  obtain ⟨o, htypeOut, hdata, hsk₇⟩ :=
    doc.holds_copy hsk₆ (c := c) (by rw [entryAt_zero]; rfl) h₇
  exact ⟨o, hsk₇.outputs, htypeOut.trans htype, by rw [hdata, xudtAmountOf_toBytes]; rfl⟩

/-- A swept match hands its tokens to the seller. -/
theorem DocumentedTokens.destroyMatch_assigns (doc : DocumentedTokens rpc runBasic)
    {seller : Address} {info : MatchInfo} {tip : U64} (hsk : Holds sk [] [])
    (hxudt : info.xudt = some x) (hc : rpc.liveCell info.matchOutpoint.packed = some c)
    (htype : c.type_ = some x.typeScript)
    (h : runInstruction rpc runBasic (destroyMatch seller info tip) sk = .ok sk') :
    Assigns sk' x.typeScript x.amount := by
  simp only [destroyMatch, hxudt, runInstruction_append_eq_ok_iff, runInstruction_cons_eq_ok_iff,
    runInstruction_nil_eq_ok_iff] at h
  obtain ⟨sk₅, ⟨sk₄, ⟨sk₁, h₁, sk₂, h₂, sk₃, h₃, sk₄', h₄, rfl⟩, h₅⟩, sk₆, h₆, sk₇, h₇, rfl⟩ := h
  have hsk₁ := doc.holds_contract hsk h₁
  have hsk₂ := doc.holds_header hsk₁ h₂
  have hsk₃ := doc.holds_inputAt hsk₂ hc List.not_mem_nil h₃
  obtain ⟨party, -, hsk₄⟩ := doc.holds_party hsk₃ h₄
  have hsk₅ := hsk₄.ite h₅ fun hheader => doc.holds_header hsk₄ hheader
  have hsk₆ := doc.holds_xudtDep hsk₅ h₆
  obtain ⟨o, htypeOut, hdata, hsk₇⟩ :=
    doc.holds_copy hsk₆ (c := c) (by rw [entryAt_zero]; rfl) h₇
  exact ⟨o, hsk₇.outputs, htypeOut.trans htype, by rw [hdata, xudtAmountOf_u128ToLeBytes]⟩

/-- An extraction leaves the match what the rent leaves of its tokens, and has no other
output. -/
theorem DocumentedTokens.extractRent_assigns (doc : DocumentedTokens rpc runBasic) {ε : Type}
    {seller : Address} {info : MatchInfo} {tip : U64} {operations : Instruction} {rent : U64}
    (hsk : Holds sk [] []) (hxudt : info.xudt = some x)
    (hc : rpc.liveCell info.matchOutpoint.packed = some c) (htype : c.type_ = some x.typeScript)
    (halive : (info.isExhausted tip : Outcome ε _) = .ok false)
    (hrent : (info.extractionAmount tip : Outcome ε _) = .ok rent)
    (hops : (extractRent seller info tip : Outcome ε _) = .ok operations)
    (h : runInstruction rpc runBasic operations sk = .ok sk') :
    Assigns sk' x.typeScript (saturatingSub x.amount (rent.setWidth 128)) := by
  simp only [extractRent, halive, hrent, Outcome.ok_bind, Bool.false_eq_true, if_false,
    hxudt] at hops
  obtain rfl := Except.ok.inj hops
  simp only [runInstruction_append_eq_ok_iff, runInstruction_cons_eq_ok_iff,
    runInstruction_nil_eq_ok_iff] at h
  obtain ⟨sk₆, ⟨sk₅, ⟨sk₁, h₁, sk₂, h₂, sk₃, h₃, sk₄, h₄, sk₅', h₅, rfl⟩, h₆⟩, sk₇, h₇, rfl⟩ := h
  have hsk₁ := doc.holds_contract hsk h₁
  have hsk₂ := doc.holds_channel hsk₁ h₂
  have hsk₃ := doc.holds_header hsk₂ h₃
  obtain ⟨party, hplain, hsk₄⟩ := doc.holds_party hsk₃ h₄
  -- the match holds tokens, so it is none of the cells of the seller
  have hnew : c ∉ [] ++ party := by
    intro hmem
    have hnone := (hplain c hmem).resolve_left List.not_mem_nil
    rw [htype] at hnone
    simp at hnone
  have hsk₅ := doc.holds_inputAt hsk₄ hc hnew h₅
  have hlast : entryAt ([] ++ party ++ [c]) usizeMax = some c := by
    rw [entryAt_usizeMax]
    exact List.getLast?_concat
  have hsk₆ := hsk₅.ite h₆ fun hheader => doc.holds_inputHeader hsk₅ hlast hheader
  obtain ⟨o, htypeOut, hdata, hsk₇⟩ := doc.holds_copy hsk₆ hlast h₇
  exact ⟨o, hsk₇.outputs, htypeOut.trans htype, by rw [hdata, xudtAmountOf_toBytes]⟩

end Builders

end Opticrum
