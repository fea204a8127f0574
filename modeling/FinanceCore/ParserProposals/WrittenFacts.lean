import FinanceCore.Calculators.StatedShares
import FinanceCore.Money.Contract
import FinanceCore.ParserProposals.CompleteFacts

namespace FinanceCore.ParserProposals

open Calculators Decimal Exceptions Money List Option

variable {ctx : Context} {castNumeric : String → SqliteValue} {currency : Currency}

/-- A text of accepted money that states the given amount. -/
structure StatesAmount (context : Context) (currency : Currency) (text : String)
    (amount : ℚ) : Prop where
  accepted : AcceptedMoney context currency (.text text)
  value : moneyValue (.text text) = amount
  nonempty : text ≠ ""

theorem canonicalAmount_states {raw : String} {label : FactLabel} {amount : ℚ × String}
    (run : canonicalAmount ctx castNumeric raw currency label = .ok amount) :
    StatesAmount ctx currency amount.2 amount.1 := by
  simp only [canonicalAmount, bind_ok] at run
  obtain ⟨number, _, _, held, _, positive, text, written, exact, read, _, _, run⟩ := run
  obtain rfl := pure_ok.mp run
  have held := validateAmountForCurrency_ok.mp (mapError_ok.mp held)
  have positive := require_ok.mp positive
  have read := mapError_ok.mp read
  obtain ⟨same, nonempty⟩ := value_of_canonicalMoneyStr held (mapError_ok.mp written) read
  exact ⟨.of_read read (same ▸ held) (same ▸ positive), moneyValue_of_read read, nonempty⟩

variable {receiptCurrency : String} {members : Dict String Member} {owner : FactOwner}
  {entries : List SpecParticipant}

variable (code : currency.code = receiptCurrency)

include code in
/-- The declared currency of an accepted fact is the currency of the receipt. -/
theorem declared_eq {declared : Currency} {result : Unit}
    (same : requireReceiptCurrency declared receiptCurrency = .ok result) : declared = currency := by
  have equal := (require_ok.mp same).trans code.symm
  cases declared <;> cases currency <;> first | rfl | exact absurd equal (by decide)

variable {receipt : ConvertedReceipt} {final : ShareState} {shares : List CanonicalShare}

/-- The guarded receipt names a canonical currency and states positive money. -/
theorem requireReceiptMonetaryIntegrity_sound (run : requireReceiptMonetaryIntegrity ctx receipt = .ok ()) :
    ∃ currency : Currency, currency.code = receipt.currency ∧
      AcceptedMoney ctx currency (.text receipt.netPaidAmountCanonicalText) := by
  simp only [requireReceiptMonetaryIntegrity, bind_ok, require_ok, mapError_ok] at run
  obtain ⟨currency, _, _, code, amount, read, _, held, _, positive, run⟩ := run
  exact ⟨currency, code, .of_read read (validateAmountForCurrency_ok.mp held) positive⟩

theorem mem_included_of_resolve {publicId : String} {id : ℤ}
    (run : resolveIncludedParticipant members publicId owner = .ok id) : publicId ∈ includedMembers members := by
  obtain ⟨member, found, run⟩ := bind_ok.mp run
  obtain ⟨_, included, _⟩ := bind_ok.mp run
  refine mem_map.mpr ⟨(publicId, member), mem_filter.mpr ⟨?_, ?_⟩, rfl⟩
  · exact Dict.mem_entries_of_get? (expect_ok.mp found)
  · exact decide_eq_true (require_ok.mp included)

/-- An item keeps its line, and its text states money of the receipt currency. -/
structure WrittenItem (context : Context) (currency : Currency) (entry : SpecItem)
    (item : CanonicalItem) :
    Prop where
  line : item.lineNumber = entry.lineNumber
  states : ∃ amount, StatesAmount context currency item.lineAmountText amount

/-- Every recorded line amount is the amount of a written item of that line. -/
def RecordsAmounts (state : List CanonicalItem × Dict ℤ ℚ) : Prop :=
  ∀ line amount, state.2.get? line = some amount →
    ∃ item ∈ state.1, item.lineNumber = line ∧ moneyValue (.text item.lineAmountText) = amount

include code in
theorem completeItem_step {state next : List CanonicalItem × Dict ℤ ℚ} {entry : SpecItem}
    (step : completeItem ctx castNumeric receiptCurrency state entry = .ok next) :
    ∃ item amount, WrittenItem ctx currency entry item ∧ next.1 = state.1 ++ [item] ∧
      next.2 = state.2.set item.lineNumber amount ∧ moneyValue (.text item.lineAmountText) = amount := by
  simp only [completeItem, bind_ok, pure_ok] at step
  obtain ⟨declared, _, lineAmount, written, _, same, price, _, _, _, rfl⟩ := step
  obtain rfl := declared_eq code same
  have states := canonicalAmount_states written
  exact ⟨_, _, ⟨rfl, _, states⟩, rfl, rfl, states.value⟩

include code in
theorem completeItems_written {entries : List SpecItem} {final : List CanonicalItem × Dict ℤ ℚ}
    (run : entries.foldlM (completeItem ctx castNumeric receiptCurrency) ([], Dict.empty) = .ok final) :
    Forall₂ (WrittenItem ctx currency) entries final.1 ∧ RecordsAmounts final := by
  constructor
  · obtain ⟨items, written, same⟩ := foldlM_collect Prod.fst (WrittenItem ctx currency) (fun state entry next _ step => by
      obtain ⟨item, _, written, grown, _⟩ := completeItem_step code step
      exact ⟨item, written, grown⟩) run
    rw [same]
    exact written
  · refine foldlM_invariant RecordsAmounts (fun state entry next _ records step => ?_)
      (fun line amount found => by cases found) run
    obtain ⟨item, amount, _, grown, set, states⟩ := completeItem_step code step
    intro line recorded found
    rw [grown]
    rcases Dict.get?_set_cases (set ▸ found) with ⟨here, same⟩ | ⟨_, old⟩
    · exact ⟨item, by simp, here.symm, states.trans same.symm⟩
    · obtain ⟨earlier, member, rest⟩ := records line recorded old
      exact ⟨earlier, by simp [member], rest⟩

/-- A written participant is an included member under the same public id. -/
structure WrittenParticipant (members : Dict String Member) (entry : SpecParticipant)
    (share : CanonicalShare) :
    Prop where
  publicId : share.participantPublicId = entry.participantPublicId
  included : share.participantPublicId ∈ includedMembers members

/-- The amount that a canonical share states. -/
def shareValue (share : CanonicalShare) : ℚ := moneyValue (.text (share.shareText.getD ""))

/-- A written manual share states its amount. -/
structure WrittenShare (context : Context) (currency : Currency) (members : Dict String Member)
    (entry : SpecParticipant) (share : CanonicalShare) : Prop extends WrittenParticipant members entry share where
  stated : ∃ text, share.shareText = some text ∧ text ≠ "" ∧ AcceptedMoney context currency (.text text)

theorem completeEqualParticipants_written
    (run : entries.foldlM (completeEqualParticipant members owner) ([], 0) = .ok final) :
    Forall₂ (WrittenParticipant members) entries final.1 := by
  obtain ⟨shares, written, same⟩ := foldlM_collect Prod.fst (WrittenParticipant members)
    (fun state entry next _ step => by
      obtain ⟨id, resolved, step⟩ := bind_ok.mp step
      obtain ⟨_, _, step⟩ := bind_ok.mp step
      obtain rfl := pure_ok.mp step
      exact ⟨_, ⟨rfl, mem_included_of_resolve resolved⟩, rfl⟩) run
  rw [same]
  exact written

include code in
theorem completeManualParticipant_step {state next : ShareState} {entry : SpecParticipant}
    (step : completeManualParticipant ctx castNumeric receiptCurrency members owner state entry = .ok next) :
    ∃ share, WrittenShare ctx currency members entry share ∧
      next = (state.1 ++ [share], ctx.add state.2 (shareValue share)) := by
  simp only [completeManualParticipant, bind_ok, pure_ok] at step
  obtain ⟨id, resolved, shareRaw, _, currencyRaw, _, share, explicit, rfl⟩ := step
  simp only [explicitShare, bind_ok] at explicit
  obtain ⟨declared, _, _, _, _, _, _, _, _, _, _, same, explicit⟩ := explicit
  obtain rfl := declared_eq code same
  have states := canonicalAmount_states explicit
  refine ⟨⟨entry.participantPublicId, id, some share.2⟩,
    ⟨⟨rfl, mem_included_of_resolve resolved⟩, _, rfl, states.nonempty, states.accepted⟩, ?_⟩
  rw [shareValue, getD_some, states.value]

include code in
/-- Manual shares that pass against a held amount add up to it exactly. -/
theorem completeManualParticipants_written
    (run : entries.foldlM (completeManualParticipant ctx castNumeric receiptCurrency members owner) ([], 0) =
      .ok final) (held : ctx.Holds (minorUnits currency) final.2) :
    Forall₂ (WrittenShare ctx currency members) entries final.1 ∧
      (final.1.map shareValue).sum = final.2 := by
  have total : final.2 = ctx.sumFrom 0 (final.1.map shareValue) := by
    refine foldlM_invariant (fun state : ShareState => state.2 = ctx.sumFrom 0 (state.1.map shareValue))
      (fun state entry next _ total step => ?_) rfl run
    obtain ⟨share, _, rfl⟩ := completeManualParticipant_step code step
    simp only [map_append, map_singleton, total, Context.sumFrom, foldl_append, foldl_cons, foldl_nil]
  obtain ⟨shares, written, same⟩ := foldlM_collect Prod.fst (WrittenShare ctx currency members)
    (fun state entry next _ step => by
      obtain ⟨share, written, rfl⟩ := completeManualParticipant_step code step
      exact ⟨share, written, rfl⟩) run
  subst same
  refine ⟨written, ?_⟩
  have each : ∀ value ∈ final.1.map shareValue, AtScale (minorUnits currency) value ∧ 0 ≤ value := by
    intro value member
    obtain ⟨share, inside, rfl⟩ := mem_map.mp member
    obtain ⟨entry, _, sound⟩ := exists_of_mem_forall₂ written inside
    obtain ⟨text, stated, _, accepted⟩ := sound.stated
    rw [shareValue, stated]
    exact ⟨accepted.held.atScale, accepted.positive.le⟩
  rw [total] at held
  rw [total, Context.sumFrom_eq_of_kept each held]

/-- Explicit shares that state money and add up to the amount. -/
structure StatedShares (context : Context) (currency : Currency) (shares : List CanonicalShare)
    (amount : ℚ) :
    Prop where
  each : ∀ share ∈ shares, ∃ text, share.shareText = some text ∧ text ≠ "" ∧
    AcceptedMoney context currency (.text text)
  total : (shares.map shareValue).sum = amount

theorem statedShares_of_written {amount : ℚ}
    (written : Forall₂ (WrittenShare ctx currency members) entries shares)
    (total : (shares.map shareValue).sum = amount) : StatedShares ctx currency shares amount := by
  refine ⟨fun share member => ?_, total⟩
  obtain ⟨entry, _, sound⟩ := exists_of_mem_forall₂ written member
  exact sound.stated

/-- The participants of a written entry: someone, each once, all of them included members. -/
structure IncludedOnce (members : Dict String Member) (shares : List CanonicalShare) : Prop where
  someone : shares ≠ []
  once : (shares.map CanonicalShare.participantPublicId).Nodup
  included : ∀ share ∈ shares, share.participantPublicId ∈ includedMembers members

theorem includedOnce_of_written (distinct : DistinctParticipants entries)
    (written : Forall₂ (WrittenParticipant members) entries shares) : IncludedOnce members shares := by
  refine ⟨?_, ?_, ?_⟩
  · rintro rfl
    exact distinct.1 (forall₂_nil_right_iff.mp written)
  · rw [map_eq_of_forall₂ (fun _ _ same => same.publicId) written]
    exact distinct.2
  · intro share member
    obtain ⟨entry, _, sound⟩ := exists_of_mem_forall₂ written member
    exact sound.included

/-- What a written allocation keeps of its entry and of the recorded line amounts. -/
structure WrittenAllocation (context : Context) (currency : Currency) (members : Dict String Member)
    (lineAmounts : Dict ℤ ℚ) (entry : SpecAllocation) (allocation : CanonicalAllocation) : Prop where
  line : allocation.lineNumber = entry.lineNumber
  participants : List.Forall₂ (WrittenParticipant members) entry.participants allocation.participants
  method : allocation.allocationMethod = .equalAmount ∨ (allocation.allocationMethod = .manual ∧
    ∃ amount, lineAmounts.get? allocation.lineNumber = some amount ∧
      StatedShares context currency allocation.participants amount)

include code in
theorem completeAllocation_written {lineAmounts : Dict ℤ ℚ} {entry : SpecAllocation}
    {allocation : CanonicalAllocation}
    (held : ∀ line amount, lineAmounts.get? line = some amount → ctx.Holds (minorUnits currency) amount)
    (run : completeAllocation ctx castNumeric receiptCurrency members lineAmounts entry = .ok allocation) :
    WrittenAllocation ctx currency members lineAmounts entry allocation := by
  unfold completeAllocation at run
  split at run
  · cases run
  · obtain ⟨shares, folded, run⟩ := bind_ok.mp run
    obtain rfl := pure_ok.mp run
    exact ⟨rfl, completeEqualParticipants_written folded, .inl rfl⟩
  · simp only [bind_ok, pure_ok] at run
    obtain ⟨shares, folded, amount, found, _, same, rfl⟩ := run
    have found := expect_ok.mp found
    have same := require_ok.mp same
    obtain ⟨written, total⟩ := completeManualParticipants_written code folded (same ▸ held _ _ found)
    exact ⟨rfl, written.imp fun _ _ sound => sound.toWrittenParticipant,
      .inr ⟨rfl, amount, found, statedShares_of_written written (total.trans same)⟩⟩

/-- What a written adjustment keeps of its entry. -/
structure WrittenAdjustment (context : Context) (currency : Currency) (members : Dict String Member)
    (entry : SpecAdjustment) (adjustment : CanonicalAdjustment) : Prop where
  type : adjustment.adjustmentType ∈ adjustmentTypes
  direction : adjustment.direction ∈ adjustmentDirections
  method : adjustment.allocationMethod ∈ adjustmentAllocationMethods
  money : AcceptedMoney context currency (.text adjustment.amountText)
  shares : (adjustment.allocationMethod ≠ .manual ∧ adjustment.participants = none) ∨
    (adjustment.allocationMethod = .manual ∧ ∃ entries shares, entry.participants = some entries ∧
      adjustment.participants = some shares ∧
      List.Forall₂ (WrittenParticipant members) entries shares ∧
      StatedShares context currency shares (moneyValue (.text adjustment.amountText)))

include code in
theorem completeAdjustment_step {state next : AdjustmentState} {entry : SpecAdjustment}
    (step : completeAdjustment ctx castNumeric receiptCurrency members state entry = .ok next) :
    ∃ adjustment, WrittenAdjustment ctx currency members entry adjustment ∧
      next.adjustments = state.adjustments ++ [adjustment] := by
  obtain ⟨_, type, step⟩ := bind_ok.mp step
  obtain ⟨_, direction, step⟩ := bind_ok.mp step
  obtain ⟨_, method, step⟩ := bind_ok.mp step
  obtain ⟨declared, _, step⟩ := bind_ok.mp step
  obtain ⟨amount, written, step⟩ := bind_ok.mp step
  obtain ⟨_, same, step⟩ := bind_ok.mp step
  obtain ⟨people, completed, step⟩ := bind_ok.mp step
  obtain rfl := declared_eq code same
  have states := canonicalAmount_states written
  have grown : next.adjustments = state.adjustments ++ [⟨entry.adjustmentIndex, entry.adjustmentType,
      entry.direction, amount.2, entry.allocationMethod, entry.description, people⟩] := by
    split_ifs at step <;> exact (pure_ok.mp step) ▸ rfl
  refine ⟨_, ⟨require_ok.mp type, require_ok.mp direction, require_ok.mp method, states.accepted, ?_⟩, grown⟩
  unfold completeAdjustmentShares at completed
  split_ifs at completed with manual
  · simp only [bind_ok, pure_ok, expect_ok] at completed
    obtain ⟨entries, listed, shares, folded, _, equal, rfl⟩ := completed
    have equal := require_ok.mp equal
    have held : ctx.Holds (minorUnits declared) shares.2 := by
      rw [equal, ← states.value]
      exact states.accepted.held
    obtain ⟨written, total⟩ := completeManualParticipants_written code folded held
    refine .inr ⟨manual, entries, shares.1, listed, rfl,
      written.imp fun _ _ sound => sound.toWrittenParticipant, statedShares_of_written written ?_⟩
    rw [total, equal, states.value]
  · obtain ⟨_, _, completed⟩ := bind_ok.mp completed
    obtain rfl := pure_ok.mp completed
    exact .inl ⟨manual, rfl⟩

/-- What the guarded write path guarantees about the facts that it returns. -/
structure WrittenFacts (context : Context) (currency : Currency) (members : Dict String Member)
    (facts : CanonicalFacts) : Prop where
  someItem : facts.items ≠ []
  money : ∀ item ∈ facts.items, AcceptedMoney context currency (.text item.lineAmountText)
  lines : (facts.allocations.map CanonicalAllocation.lineNumber).Nodup
  covered : ∀ item ∈ facts.items, item.lineNumber ∈ facts.allocations.map CanonicalAllocation.lineNumber
  participants : ∀ allocation ∈ facts.allocations, IncludedOnce members allocation.participants
  methods : ∀ allocation ∈ facts.allocations, allocation.allocationMethod = .equalAmount ∨
    (allocation.allocationMethod = .manual ∧ ∀ item ∈ facts.items, item.lineNumber = allocation.lineNumber →
      StatedShares context currency allocation.participants (moneyValue (.text item.lineAmountText)))
  adjustments : ∀ adjustment ∈ facts.adjustments,
    ∃ entry, WrittenAdjustment context currency members entry adjustment ∧
      ∀ entries, entry.participants = some entries → DistinctParticipants entries

theorem requireCompleteFacts_written {spec : FactsSpec} {facts : CanonicalFacts}
    (wellFormed : spec.WellFormed)
    (run : requireCompleteFacts ctx castNumeric spec receipt members = .ok facts) :
    ∃ currency : Currency, currency.code = receipt.currency ∧
      AcceptedMoney ctx currency (.text receipt.netPaidAmountCanonicalText) ∧
      WrittenFacts ctx currency members facts := by
  simp only [requireCompleteFacts, bind_ok, pure_ok] at run
  obtain ⟨_, integrity, _, _, items, completed, allocations, allocated, adjusted, folded, _, _, rfl⟩ := run
  obtain ⟨currency, code, net⟩ := requireReceiptMonetaryIntegrity_sound integrity
  obtain ⟨written, records⟩ := completeItems_written code completed
  have money : ∀ item ∈ items.1, AcceptedMoney ctx currency (.text item.lineAmountText) := by
    intro item member
    obtain ⟨entry, _, sound⟩ := exists_of_mem_forall₂ written member
    exact sound.states.choose_spec.accepted
  have held : ∀ line amount, items.2.get? line = some amount → ctx.Holds (minorUnits currency) amount := by
    intro line amount found
    obtain ⟨item, member, _, rfl⟩ := records line amount found
    exact (money item member).held
  have itemLines : items.1.map CanonicalItem.lineNumber = spec.items.map SpecItem.lineNumber :=
    map_eq_of_forall₂ (fun _ _ sound => sound.line) written
  have each := (mapM_ok.mp allocated).imp fun entry allocation done =>
    completeAllocation_written code held done
  have allocationLines : allocations.map CanonicalAllocation.lineNumber =
      spec.allocations.map SpecAllocation.lineNumber := map_eq_of_forall₂ (fun _ _ sound => sound.line) each
  obtain ⟨adjustments, eachAdjustment, same⟩ := foldlM_collect AdjustmentState.adjustments
    (WrittenAdjustment ctx currency members)
    (fun state entry next _ step => completeAdjustment_step code step) folded
  refine ⟨currency, code, net, ⟨?_, money, ?_, ?_, ?_, ?_, ?_⟩⟩
  · intro empty
    have none : items.1 = [] := empty
    rw [none] at written
    exact wellFormed.someItem (forall₂_nil_right_iff.mp written)
  · rw [allocationLines]
    exact wellFormed.allocationLines
  · intro item member
    obtain ⟨entry, inside, sound⟩ := exists_of_mem_forall₂ written member
    rw [allocationLines, sound.line]
    exact wellFormed.covered entry inside
  · intro allocation member
    obtain ⟨entry, inside, sound⟩ := exists_of_mem_forall₂ each member
    exact includedOnce_of_written (wellFormed.allocated entry inside) sound.participants
  · intro allocation member
    obtain ⟨entry, _, sound⟩ := exists_of_mem_forall₂ each member
    refine sound.method.imp_right fun manual => ⟨manual.1, fun item listed line => ?_⟩
    obtain ⟨_, amount, found, stated⟩ := manual
    obtain ⟨recorded, inside, recordedLine, rfl⟩ := records _ amount found
    have once : (items.1.map CanonicalItem.lineNumber).Nodup := itemLines ▸ wellFormed.itemLines
    rwa [inj_on_of_nodup_map once listed inside (line.trans recordedLine.symm)]
  · intro adjustment member
    rw [same] at member
    obtain ⟨entry, inside, sound⟩ := exists_of_mem_forall₂ eachAdjustment member
    exact ⟨entry, sound, wellFormed.adjusted entry inside⟩

end FinanceCore.ParserProposals
