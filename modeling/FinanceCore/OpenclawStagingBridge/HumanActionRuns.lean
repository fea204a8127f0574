import FinanceCore.OpenclawStagingBridge.HumanActions
import FinanceCore.Foundation.Numbering

namespace FinanceCore.OpenclawStagingBridge

open Exceptions Operations NumberedRows List

variable {digests : Digests} {world : World} {scene : Surroundings} {session after : Session ReferenceTables}
  {redemption : Redemption} {moment : ℤ}

section Inserts

variable {tables after : ReferenceTables} {row : PurposeRow}

theorem insertReference_eq_ok {row : ReferenceRow} (done : tables.insertReference row = .ok after) :
    after = { tables with references := tables.references ++ [row] } := by
  simp only [ReferenceTables.insertReference, bind_ok, require_ok, pure_ok] at done
  obtain ⟨_, _, _, _, same⟩ := done
  exact same.symm

theorem insertBinding_eq_ok {row : BindingRow} (done : tables.insertBinding scene row = .ok after) :
    after = { tables with bindings := tables.bindings ++ [row] } := by
  simp only [ReferenceTables.insertBinding, bind_ok, require_ok, pure_ok] at done
  obtain ⟨_, _, _, _, _, _, same⟩ := done
  exact same.symm

theorem insertPurpose_eq_ok (done : tables.insertPurpose row = .ok after) :
    (∀ other ∈ tables.purposes, other.referenceId ≠ row.referenceId) ∧
      after = { tables with purposes := tables.purposes ++ [row] } := by
  simp only [ReferenceTables.insertPurpose, bind_ok, require_ok, pure_ok] at done
  obtain ⟨_, fresh, same⟩ := done
  exact ⟨fresh, same.symm⟩

theorem insertRedemption_eq_ok {row : RedemptionRow} (done : tables.insertRedemption row = .ok after) :
    (∀ other ∈ tables.redemptions, other.referenceId ≠ row.referenceId ∧
      other.callbackIdSha256 ≠ row.callbackIdSha256) ∧
      after = { tables with redemptions := tables.redemptions ++ [row] } := by
  simp only [ReferenceTables.insertRedemption, bind_ok, require_ok, pure_ok] at done
  obtain ⟨_, _, _, fresh, same⟩ := done
  exact ⟨fresh, same.symm⟩

/-- A purpose that the tables hold is not hidden by later rows. -/
theorem purpose?_append {referenceId : ℕ} {purpose : Purpose} (rows : List PurposeRow)
    (found : tables.purpose? referenceId = some purpose) :
    { tables with purposes := tables.purposes ++ rows }.purpose? referenceId = some purpose := by
  simp only [ReferenceTables.purpose?, Option.map_eq_some_iff] at found ⊢
  obtain ⟨row, held, same⟩ := found
  refine ⟨row, ?_, same⟩
  rw [List.find?_append, held]
  rfl

theorem purpose?_concat (fresh : ∀ other ∈ tables.purposes, other.referenceId ≠ row.referenceId) :
    { tables with purposes := tables.purposes ++ [row] }.purpose? row.referenceId = some row.purpose := by
  have absent : tables.purposes.find? (fun other => decide (other.referenceId = row.referenceId)) = none := by
    simpa using fresh
  simp only [ReferenceTables.purpose?, List.find?_append, absent]
  simp

end Inserts

/-- The rows of an issuance carry its own terms. -/
structure IssuedUnder (issuance : Issuance) (surroundings : Surroundings) (moment : ℤ)
    (reference : ReferenceRow) (purpose : Purpose) : Prop where
  context : reference.context = issuance.context
  action : reference.action ∈ issuance.allowedActions
  purpose : issuance.purposes reference.action = some purpose
  proposal : ∃ proposal, surroundings.proposalNamed? issuance.proposalPublicId = some proposal ∧
    reference.target = ⟨proposal.id, issuance.expectedVersion, issuance.expectedContentHash⟩
  expiry : reference.expiresAt = moment + issuance.ttlSeconds

/-- Later tables keep the references and their purposes. -/
structure Extends (before after : ReferenceTables) : Prop where
  references : before.references <+: after.references
  purposes : before.purposes <+: after.purposes

theorem Extends.refl (tables : ReferenceTables) : Extends tables tables where
  references := prefix_rfl
  purposes := prefix_rfl

theorem Extends.trans {first second third : ReferenceTables} (early : Extends first second)
    (late : Extends second third) : Extends first third where
  references := early.references.trans late.references
  purposes := early.purposes.trans late.purposes

theorem Extends.purpose? {before after : ReferenceTables} (extended : Extends before after)
    {referenceId : ℕ} {purpose : Purpose} (found : before.purpose? referenceId = some purpose) :
    after.purpose? referenceId = some purpose := by
  obtain ⟨rows, same⟩ := extended.purposes
  have kept := purpose?_append rows found
  rw [same] at kept
  exact kept

/-- What an issuance does to the tables: new rows under its terms, and no redemption. -/
structure Issues (issuance : Issuance) (surroundings : Surroundings) (moment : ℤ)
    (before after : ReferenceTables) :
    Prop where
  extended : Extends before after
  redemptions : after.redemptions = before.redemptions
  added : ∀ reference ∈ after.references, reference ∈ before.references ∨
    ∃ purpose, IssuedUnder issuance surroundings moment reference purpose ∧
      after.purpose? reference.id = some purpose
  numbered : Numbered ReferenceRow.id before.references →
    Numbered ReferenceRow.id after.references

theorem Issues.refl (issuance : Issuance) (scene : Surroundings) (moment : ℤ)
    (tables : ReferenceTables) :
    Issues issuance scene moment tables tables where
  extended := .refl tables
  redemptions := rfl
  added := fun _ member => .inl member
  numbered := id

theorem Issues.trans {issuance : Issuance} {first second third : ReferenceTables}
    (early : Issues issuance scene moment first second)
    (late : Issues issuance scene moment second third) : Issues issuance scene moment first third where
  extended := early.extended.trans late.extended
  redemptions := late.redemptions.trans early.redemptions
  added := by
    intro reference member
    rcases late.added reference member with earlier | new
    · rcases early.added reference earlier with old | ⟨purpose, issued, found⟩
      · left
        exact old
      · right
        exact ⟨purpose, issued, late.extended.purpose? found⟩
    · right
      exact new
  numbered := fun numbered => late.numbered (early.numbered numbered)

section Issuing

variable {issuance : Issuance} {card : Option Card} {key : String} {target : Target}
  {result : List IssuedHumanActionReference × Bool}

theorem bindCard_returns {referenceId : ℕ} {result : Unit}
    (done : bindCard scene issuance card referenceId moment session = .ok result after) :
    ∃ rows, after.store = { session.store with bindings := session.store.bindings ++ rows } := by
  cases card with
  | none =>
    obtain ⟨_, same⟩ := pure_returns.mp done
    refine ⟨[], ?_⟩
    rw [← same, append_nil]
  | some card =>
    simp only [bindCard, writing_returns] at done
    obtain ⟨tables, inserted, same⟩ := done
    rw [← same]
    exact ⟨_, insertBinding_eq_ok inserted⟩

/-- The issuance of one action adds its reference and its purpose. -/
theorem issueAction_returns {action : Action} {issued : IssuedHumanActionReference}
    (member : action ∈ issuance.allowedActions)
    (proposal : ∃ proposal, scene.proposalNamed? issuance.proposalPublicId = some proposal ∧
      target = ⟨proposal.id, issuance.expectedVersion, issuance.expectedContentHash⟩)
    (done : issueAction digests scene issuance card key target moment action session = .ok issued after) :
    Issues issuance scene moment session.store after.store := by
  simp only [issueAction, bind_returns, reading_returns, writing_returns, raising_returns, pure_returns,
    expect_ok] at done
  obtain ⟨_, _, ⟨identity, rfl⟩, _, _, ⟨referenced, insertedReference, rfl⟩, _, bound, binding, purpose, _,
    ⟨chosen, rfl⟩, _, _, ⟨classified, insertedPurpose, rfl⟩, _, rfl⟩ := done
  cases identity
  obtain ⟨rows, boundTables⟩ := bindCard_returns binding
  obtain ⟨fresh, same⟩ := insertPurpose_eq_ok insertedPurpose
  have recorded := insertReference_eq_ok insertedReference
  subst same
  have references : bound.store.references = session.store.references ++
      [newReference digests issuance key target moment action session.store.nextReferenceId] := by
    rw [boundTables, recorded]
  have purposes : bound.store.purposes = session.store.purposes := by
    rw [boundTables, recorded]
  have redemptions : bound.store.redemptions = session.store.redemptions := by
    rw [boundTables, recorded]
  refine ⟨⟨⟨_, references.symm⟩, ?_⟩, redemptions, ?_, ?_⟩
  · rw [← purposes]
    exact prefix_append _ _
  · intro reference held
    rw [references, mem_append, mem_singleton] at held
    rcases held with old | rfl
    · left
      exact old
    · right
      refine ⟨purpose, ⟨rfl, member, chosen, proposal, rfl⟩, ?_⟩
      exact purpose?_concat fresh
  · intro numbered
    rw [references]
    apply numbered.concat
    change session.store.nextReferenceId = _
    rw [ReferenceTables.nextReferenceId, numbered.newest]

theorem issueActions_returns {actions : List Action} {issued : List IssuedHumanActionReference}
    (members : ∀ action ∈ actions, action ∈ issuance.allowedActions)
    (proposal : ∃ proposal, scene.proposalNamed? issuance.proposalPublicId = some proposal ∧
      target = ⟨proposal.id, issuance.expectedVersion, issuance.expectedContentHash⟩)
    (done : issueActions digests scene issuance card key target moment actions session = .ok issued after) :
    Issues issuance scene moment session.store after.store := by
  induction actions generalizing session issued with
  | nil =>
    obtain ⟨_, same⟩ := pure_returns.mp done
    rw [same]
    exact .refl _ _ _ _
  | cons action rest ih =>
    simp only [issueActions, bind_returns, pure_returns] at done
    obtain ⟨_, middle, first, _, _, later, _, rfl⟩ := done
    have one := issueAction_returns (members action (by simp)) proposal first
    have others := ih (fun other member => members other (by simp [member])) later
    exact one.trans others

theorem issueUnder_returns {selected : String × List ReferenceView}
    (done : issueUnder digests scene issuance card moment selected session = .ok result after) :
    Issues issuance scene moment session.store after.store := by
  obtain ⟨chosen, existing⟩ := selected
  cases existing with
  | nil =>
    simp only [issueUnder, map_returns, issueFresh, bind_returns, raising_returns, reading_returns, pure_returns,
      expect_ok] at done
    obtain ⟨_, ⟨proposal, _, ⟨found, rfl⟩, _, _, ⟨_, rfl⟩, _, _, issued, _, _, ⟨_, rfl⟩, _, rfl⟩, _⟩ := done
    exact issueActions_returns (fun _ member => member) ⟨proposal, found, rfl⟩ issued
  | cons view rest =>
    simp only [issueUnder, map_returns, raising_returns] at done
    obtain ⟨_, ⟨_, rfl⟩, _⟩ := done
    exact .refl _ _ _ _

theorem issueHumanActionReferences_returns
    (done : issueHumanActionReferences digests world scene issuance session = .ok result after) :
    Issues issuance scene (world.clock session.readings) session.store after.store := by
  simp only [issueHumanActionReferences, bind_returns, raising_returns, transaction_returns, now_returns,
    reading_returns] at done
  obtain ⟨_, _, ⟨_, rfl⟩, _, _, ⟨rfl, rfl⟩, _, _, ⟨_, rfl⟩, _, _, ⟨_, rfl⟩, issued⟩ := done
  have written := issueUnder_returns issued
  exact written

end Issuing

/-- The purpose of a reference is the required one; without a requirement it is none of the posting path. -/
def Redeemable (required : Option Purpose) (purpose : Purpose) : Prop :=
  match required with
  | some required => purpose = required
  | none => purpose.requiresD2 = false

/-- What holds of a reference at every redemption. -/
structure Authorised (digests : Digests) (redemption : Redemption) (moment : ℤ)
    (tables : ReferenceTables) (reference : ReferenceRow) : Prop where
  held : reference ∈ tables.references
  named : reference.referenceSha256 = sha256Text digests redemption.reference
  early : moment < reference.expiresAt
  context : redemption.context = reference.context
  action : redemption.action = reference.action
  purpose : ∃ purpose, tables.purpose? reference.id = some purpose ∧ Redeemable redemption.requiredPurpose purpose

/-- The proposal of a reference is open and has the version and the content hash of the reference. -/
def StillBound (surroundings : Surroundings) (target : Target) : Prop :=
  ∃ proposal, surroundings.proposal? target.parserOutputId = some proposal ∧ proposal.parseStatus.isTerminal = false ∧
    proposal.effective = some (target.proposalVersion, target.proposalContentHash)

/-- The row that a redemption leaves. -/
def redemptionRow (digests : Digests) (redemption : Redemption) (moment : ℤ)
    (reference : ReferenceRow) :
    RedemptionRow :=
  ⟨reference.id, sha256Text digests redemption.callbackId, redemption.callbackMessageId, moment⟩

structure RedeemsFirst (digests : Digests) (surroundings : Surroundings) (redemption : Redemption)
    (moment : ℤ) (before after : ReferenceTables) (reference : ReferenceRow) : Prop where
  authorised : Authorised digests redemption moment before reference
  bound : StillBound surroundings reference.target
  fresh : ∀ row ∈ before.redemptions, row.referenceId ≠ reference.id ∧
    row.callbackIdSha256 ≠ sha256Text digests redemption.callbackId
  recorded : after = { before with
    redemptions := before.redemptions ++ [redemptionRow digests redemption moment reference] }

structure RedeemsAgain (digests : Digests) (redemption : Redemption) (moment : ℤ)
    (before after : ReferenceTables) (reference : ReferenceRow) : Prop where
  authorised : Authorised digests redemption moment before reference
  earlier : ∃ row ∈ before.redemptions, row.referenceId = reference.id ∧
    row.callbackIdSha256 = sha256Text digests redemption.callbackId ∧
    row.callbackMessageId = redemption.callbackMessageId
  unchanged : after = before

section Redeeming

variable {view : ReferenceView} {result : Unit} {tables : ReferenceTables}

theorem referenceRow_eq_some {text : String} (found : referenceRow scene tables digests text = some view) :
    view.reference ∈ tables.references ∧ view.reference.referenceSha256 = sha256Text digests text ∧
      view.redemption = tables.redemption? view.reference.id ∧
      view.purpose = tables.purpose? view.reference.id := by
  simp only [referenceRow, Option.bind_eq_some_iff, referenceView, Option.map_eq_some_iff] at found
  obtain ⟨reference, held, proposal, _, rfl⟩ := found
  have named := List.find?_some held
  exact ⟨mem_of_find?_eq_some held, by simpa using named, rfl, rfl⟩

theorem requirePurpose_eq_ok {required : Option Purpose} {purpose : Purpose}
    (done : requirePurpose required purpose = .ok result) : Redeemable required purpose := by
  cases required with
  | some required => simpa [Redeemable, requirePurpose] using done
  | none => simpa [Redeemable, requirePurpose] using done

theorem requireAuthority_eq_ok (found : referenceRow scene tables digests redemption.reference = some view)
    (done : requireAuthority digests scene redemption view moment = .ok result) :
    Authorised digests redemption moment tables view.reference := by
  obtain ⟨held, named, _, purposes⟩ := referenceRow_eq_some found
  simp only [requireAuthority, bind_ok, require_ok, expect_ok] at done
  obtain ⟨_, action, purpose, chosen, _, redeemable, _, context, _, early, _⟩ := done
  exact
    { held := held
      named := named
      early := early
      context := context.symm
      action := action.symm
      purpose := ⟨purpose, purposes ▸ chosen, requirePurpose_eq_ok redeemable⟩ }

theorem requireProposal_eq_ok {proposal : Proposal} {version : ℤ} {contentHash : String}
    (done : requireProposal proposal version contentHash = .ok result) :
    proposal.parseStatus.isTerminal = false ∧ proposal.effective = some (version, contentHash) := by
  simp only [requireProposal, bind_ok, require_ok, expect_ok] at done
  obtain ⟨effective, found, _, isOpen, _, rfl, rfl⟩ := done
  exact ⟨by simpa using isOpen, found⟩

variable (authorised : Authorised digests redemption moment session.store view.reference)
  {result : RedeemedHumanAction}
include authorised

theorem redeemFirst_returns (done : redeemFirst digests scene redemption view moment session = .ok result after) :
    RedeemsFirst digests scene redemption moment session.store after.store view.reference := by
  simp only [redeemFirst, bind_returns, reading_returns, raising_returns, writing_returns, pure_returns,
    expect_ok] at done
  obtain ⟨_, _, ⟨_, rfl⟩, proposal, _, ⟨found, rfl⟩, _, _, ⟨checked, rfl⟩, _, _, ⟨_, rfl⟩, _, _,
    ⟨tables, inserted, rfl⟩, _, _, ⟨_, rfl⟩, _, rfl⟩ := done
  obtain ⟨isOpen, effective⟩ := requireProposal_eq_ok checked
  obtain ⟨fresh, recorded⟩ := insertRedemption_eq_ok inserted
  exact ⟨authorised, ⟨proposal, found, isOpen, effective⟩, fresh, recorded⟩

theorem redeemAgain_eq_ok {earlier : RedemptionRow}
    (known : session.store.redemption? view.reference.id = some earlier)
    (done : redeemAgain digests redemption view earlier moment = .ok result) :
    RedeemsAgain digests redemption moment session.store session.store view.reference := by
  simp only [redeemAgain, bind_ok, require_ok] at done
  obtain ⟨_, ⟨callback, message⟩, _⟩ := done
  have reference := List.find?_some known
  have member := mem_of_find?_eq_some known
  exact ⟨authorised, ⟨earlier, member, by simpa using reference, callback, message⟩, rfl⟩

omit authorised

/-- A redemption that returns is the first one of a reference, or repeats the callback of the first one. -/
theorem redeemHumanActionReference_returns
    (done : redeemHumanActionReference digests world scene redemption session = .ok result after) :
    ∃ reference,
      RedeemsFirst digests scene redemption (world.clock session.readings) session.store after.store reference ∨
        RedeemsAgain digests redemption (world.clock session.readings) session.store after.store reference := by
  simp only [redeemHumanActionReference, bind_returns, raising_returns, transaction_returns, now_returns,
    reading_returns, expect_ok] at done
  obtain ⟨_, _, ⟨_, rfl⟩, _, _, ⟨rfl, rfl⟩, view, _, ⟨found, rfl⟩, _, _, ⟨authority, rfl⟩, redeemed⟩ := done
  have authorised := requireAuthority_eq_ok found authority
  obtain ⟨_, _, redemptions, _⟩ := referenceRow_eq_some found
  refine ⟨view.reference, ?_⟩
  unfold redeemView at redeemed
  cases known : view.redemption with
  | some earlier =>
    right
    rw [known] at redeemed redemptions
    obtain ⟨again, rfl⟩ := raising_returns.mp redeemed
    exact redeemAgain_eq_ok authorised redemptions.symm again
  | none =>
    left
    rw [known] at redeemed
    have first := redeemFirst_returns (by exact authorised) redeemed
    exact first

end Redeeming

theorem performHumanAction_raises {request : HumanActionRequest} {failure : HumanActionFailure}
    (raised : performHumanAction digests world request session = .error failure after) :
    after.store = session.store := by
  unfold performHumanAction at raised
  cases call : request.call with
  | issue issuance =>
    simp only [call, map_raises, issueHumanActionReferences, bind_raises, raising_raises, raising_returns] at raised
    rcases raised with ⟨_, rfl⟩ | ⟨_, _, ⟨_, rfl⟩, raised⟩
    · rfl
    · exact transaction_raises raised
  | redeem redemption =>
    simp only [call, map_raises, redeemHumanActionReference, bind_raises, raising_raises, raising_returns] at raised
    rcases raised with ⟨_, rfl⟩ | ⟨_, _, ⟨_, rfl⟩, raised⟩
    · rfl
    · exact transaction_raises raised

section Runs

variable (digests world) (requests : List HumanActionRequest)

/-- The session that the request at a position meets, from empty tables on. -/
def humanActionsAt (position : ℕ) : Session ReferenceTables :=
  runTo (performHumanAction digests world) ⟨.empty, 0, 0⟩ requests position

def tablesAt (position : ℕ) : ReferenceTables := (humanActionsAt digests world requests position).store

def momentAt (position : ℕ) : ℤ := world.clock (humanActionsAt digests world requests position).readings

/-- The request at a position issues under its terms. -/
def IssuesAt (position : ℕ) (issuance : Issuance) : Prop :=
  ∃ surroundings, requests[position]? = some ⟨surroundings, .issue issuance⟩ ∧
    Issues issuance surroundings (momentAt digests world requests position) (tablesAt digests world requests position)
      (tablesAt digests world requests (position + 1))

/-- The request at a position is the first redemption of a reference. -/
def RedeemsFirstAt (position : ℕ) (redemption : Redemption) (reference : ReferenceRow) : Prop :=
  ∃ surroundings, requests[position]? = some ⟨surroundings, .redeem redemption⟩ ∧
    RedeemsFirst digests surroundings redemption (momentAt digests world requests position)
      (tablesAt digests world requests position) (tablesAt digests world requests (position + 1)) reference

/-- The request at a position redeems a reference that was redeemed before. -/
def RedeemsAgainAt (position : ℕ) (redemption : Redemption) (reference : ReferenceRow) : Prop :=
  ∃ surroundings, requests[position]? = some ⟨surroundings, .redeem redemption⟩ ∧
    RedeemsAgain digests redemption (momentAt digests world requests position)
      (tablesAt digests world requests position) (tablesAt digests world requests (position + 1)) reference

variable {digests world requests}

variable {position : ℕ} {reference : ReferenceRow}

/-- The outcomes of a request that returns. -/
theorem returned_cases {request : HumanActionRequest} {result : HumanActionResult}
    (here : requests[position]? = some request)
    (done : performHumanAction digests world request (humanActionsAt digests world requests position) =
      .ok result (humanActionsAt digests world requests (position + 1))) :
    (∃ issuance, request.call = .issue issuance ∧ IssuesAt digests world requests position issuance) ∨
      ∃ redemption reference, request.call = .redeem redemption ∧
        (RedeemsFirstAt digests world requests position redemption reference ∨
          RedeemsAgainAt digests world requests position redemption reference) := by
  obtain ⟨scene, call⟩ := request
  cases call with
  | issue issuance =>
    left
    simp only [performHumanAction, map_returns] at done
    obtain ⟨issued, written, _⟩ := done
    exact ⟨issuance, rfl, scene, here, issueHumanActionReferences_returns written⟩
  | redeem redemption =>
    right
    simp only [performHumanAction, map_returns] at done
    obtain ⟨redeemed, written, _⟩ := done
    obtain ⟨reference, first | again⟩ := redeemHumanActionReference_returns written
    · exact ⟨redemption, reference, rfl, .inl ⟨scene, here, first⟩⟩
    · exact ⟨redemption, reference, rfl, .inr ⟨scene, here, again⟩⟩

variable (digests world requests) in
/-- What one position of a run does to the tables. -/
theorem tablesAt_succ (position : ℕ) :
    tablesAt digests world requests (position + 1) = tablesAt digests world requests position ∨
      (∃ issuance, IssuesAt digests world requests position issuance) ∨
      ∃ redemption reference, RedeemsFirstAt digests world requests position redemption reference := by
  rcases runTo_cases (fun _ _ _ _ => performHumanAction_raises) ⟨.empty, 0, 0⟩ requests position with
    same | ⟨request, result, here, done⟩
  · left
    exact same
  · rcases returned_cases here done with ⟨issuance, _, issues⟩ | ⟨redemption, reference, _, first | again⟩
    · right
      left
      exact ⟨issuance, issues⟩
    · right
      right
      exact ⟨redemption, reference, first⟩
    · left
      obtain ⟨_, _, repeated⟩ := again
      exact repeated.unchanged

variable (digests world requests) in
/-- No row leaves the tables. -/
theorem tablesAt_grows {earlier later : ℕ} (before : earlier ≤ later) :
    Extends (tablesAt digests world requests earlier) (tablesAt digests world requests later) ∧
      (tablesAt digests world requests earlier).redemptions <+: (tablesAt digests world requests later).redemptions := by
  induction later, before using Nat.le_induction with
  | base => exact ⟨.refl _, prefix_rfl⟩
  | succ later _ ih =>
    rcases tablesAt_succ digests world requests later with same | ⟨issuance, scene, _, issues⟩ |
      ⟨redemption, reference, scene, _, first⟩
    · rwa [same]
    · rw [issues.redemptions]
      exact ⟨ih.1.trans issues.extended, ih.2⟩
    · rw [first.recorded]
      exact ⟨ih.1.trans ⟨prefix_rfl, prefix_rfl⟩, ih.2.trans (prefix_append _ _)⟩

variable (digests world requests) in
/-- The references are numbered in the order of their issuance. -/
theorem tablesAt_numbered (position : ℕ) :
    Numbered ReferenceRow.id (tablesAt digests world requests position).references := by
  induction position with
  | zero => exact numbered_nil _
  | succ position ih =>
    rcases tablesAt_succ digests world requests position with same | ⟨issuance, scene, _, issues⟩ |
      ⟨redemption, reference, scene, _, first⟩
    · rw [same]
      exact ih
    · exact issues.numbered ih
    · rw [first.recorded]
      exact ih

/-- Every reference comes from one issuance and keeps the purpose that it got there. -/
theorem exists_issuance (held : reference ∈ (tablesAt digests world requests position).references) :
    ∃ earlier < position, ∃ scene issuance purpose, requests[earlier]? = some ⟨scene, .issue issuance⟩ ∧
      IssuedUnder issuance scene (momentAt digests world requests earlier) reference purpose ∧
      (tablesAt digests world requests position).purpose? reference.id = some purpose := by
  obtain ⟨earlier, before, absent, present⟩ :=
    exists_start (fun tables : ReferenceTables => reference ∈ tables.references) (by simp [ReferenceTables.empty]) held
  change reference ∈ (tablesAt digests world requests (earlier + 1)).references at present
  rcases tablesAt_succ digests world requests earlier with
    same | ⟨issuance, scene, here, issues⟩ | ⟨redemption, other, scene, _, first⟩
  · rw [same] at present
    exact absurd present absent
  · rcases issues.added reference present with old | ⟨purpose, issued, found⟩
    · exact absurd old absent
    · have later := (tablesAt_grows digests world requests before).1
      exact ⟨earlier, before, scene, issuance, purpose, here, issued, later.purpose? found⟩
  · rw [first.recorded] at present
    exact absurd present absent

/-- Every row of a redemption comes from a first redemption. -/
theorem exists_first {row : RedemptionRow} (held : row ∈ (tablesAt digests world requests position).redemptions) :
    ∃ earlier < position, ∃ redemption reference, RedeemsFirstAt digests world requests earlier redemption reference ∧
      row = redemptionRow digests redemption (momentAt digests world requests earlier) reference := by
  obtain ⟨earlier, before, absent, present⟩ :=
    exists_start (fun tables : ReferenceTables => row ∈ tables.redemptions) (by simp [ReferenceTables.empty]) held
  change row ∈ (tablesAt digests world requests (earlier + 1)).redemptions at present
  rcases tablesAt_succ digests world requests earlier with
    same | ⟨issuance, scene, _, issues⟩ | ⟨redemption, reference, scene, here, first⟩
  · rw [same] at present
    exact absurd present absent
  · rw [issues.redemptions] at present
    exact absurd present absent
  · have recorded := present
    rw [first.recorded, mem_append, mem_singleton] at recorded
    rcases recorded with old | rfl
    · exact absurd old absent
    · exact ⟨earlier, before, redemption, reference, ⟨scene, here, first⟩, rfl⟩

/-- A first redemption leaves its row in all later tables. -/
theorem RedeemsFirstAt.row_held {first later : ℕ}
    (redeems : RedeemsFirstAt digests world requests first redemption reference)
    (before : first < later) :
    redemptionRow digests redemption (momentAt digests world requests first) reference ∈
      (tablesAt digests world requests later).redemptions := by
  obtain ⟨_, _, redeemed⟩ := redeems
  have grown := (tablesAt_grows digests world requests before).2
  apply grown.subset
  rw [redeemed.recorded]
  simp

/-- Two first redemptions share neither their reference nor their callback. -/
theorem RedeemsFirstAt.unique {first second : ℕ} {other : Redemption} {another : ReferenceRow}
    (redeems : RedeemsFirstAt digests world requests first redemption reference)
    (again : RedeemsFirstAt digests world requests second other another)
    (shared : reference.id = another.id ∨ redemption.callbackId = other.callbackId) : first = second := by
  by_contra different
  wlog before : first < second generalizing first second redemption other reference another
  · exact this again redeems (shared.imp Eq.symm Eq.symm) (Ne.symm different) (by omega)
  · obtain ⟨_, _, redeemed⟩ := again
    have fresh := redeemed.fresh _ (redeems.row_held before)
    rcases shared with same | same
    · exact fresh.1 same
    · exact fresh.2 (by rw [redemptionRow, same])

/-- The callback that a request names, if it redeems. -/
def HumanActionRequest.callbackId? (request : HumanActionRequest) : Option String :=
  match request.call with
  | .issue _ => none
  | .redeem redemption => some redemption.callbackId

/-- No two callbacks of the requests have one hash. -/
def DistinctCallbacks (digests : Digests) (requests : List HumanActionRequest) : Prop :=
  Set.InjOn (sha256Text digests) {callback | callback ∈ requests.filterMap HumanActionRequest.callbackId?}

theorem mem_callbackIds (here : requests[position]? = some ⟨scene, .redeem redemption⟩) :
    redemption.callbackId ∈ requests.filterMap HumanActionRequest.callbackId? := by
  rw [mem_filterMap]
  exact ⟨_, mem_of_getElem? here, rfl⟩

/-- A repeated redemption has the callback and the message of the first one. -/
theorem RedeemsAgainAt.first (distinct : DistinctCallbacks digests requests)
    (again : RedeemsAgainAt digests world requests position redemption reference) :
    ∃ earlier < position, ∃ original, RedeemsFirstAt digests world requests earlier original reference ∧
      original.callbackId = redemption.callbackId ∧ original.callbackMessageId = redemption.callbackMessageId := by
  obtain ⟨_, called, repeated⟩ := again
  obtain ⟨row, held, sameReference, callback, message⟩ := repeated.earlier
  obtain ⟨earlier, before, original, other, redeems, rfl⟩ := exists_first held
  have inside : other ∈ (tablesAt digests world requests position).references := by
    obtain ⟨_, _, redeemed⟩ := redeems
    have grown := (tablesAt_grows digests world requests (Nat.le_of_lt before)).1
    exact grown.references.subset redeemed.authorised.held
  have same := (tablesAt_numbered digests world requests position).injective inside repeated.authorised.held sameReference
  subst same
  refine ⟨earlier, before, original, redeems, ?_, message⟩
  obtain ⟨_, here, _⟩ := redeems
  exact distinct (mem_callbackIds here) (mem_callbackIds called) callback

/-- The terms of a redemption are those of the issuance of its reference. -/
theorem Authorised.issued
    (authorised : Authorised digests redemption moment (tablesAt digests world requests position) reference) :
    ∃ earlier < position, ∃ scene issuance purpose, requests[earlier]? = some ⟨scene, .issue issuance⟩ ∧
      IssuedUnder issuance scene (momentAt digests world requests earlier) reference purpose ∧
      Redeemable redemption.requiredPurpose purpose := by
  obtain ⟨earlier, before, scene, issuance, purpose, here, issued, found⟩ := exists_issuance authorised.held
  obtain ⟨same, held, redeemable⟩ := authorised.purpose
  rw [found, Option.some_inj] at held
  subst held
  exact ⟨earlier, before, scene, issuance, purpose, here, issued, redeemable⟩

/-- References are redeemed once each. Every redemption that returns is a first one or repeats one; the first ones share
neither reference nor callback; a repeated one has the callback and the message of the first one; both have the terms
of the issuance; only first ones add to the redemptions; a request that raises changes nothing. -/
theorem human_action_references_redeemed_once (digests : Digests) (world : World)
    (requests : List HumanActionRequest) (distinct : DistinctCallbacks digests requests) :
    (∀ position surroundings redemption result after,
      requests[position]? = some ⟨surroundings, .redeem redemption⟩ →
      performHumanAction digests world ⟨surroundings, .redeem redemption⟩
        (humanActionsAt digests world requests position) = .ok result after →
      ∃ reference, RedeemsFirstAt digests world requests position redemption reference ∨
        RedeemsAgainAt digests world requests position redemption reference) ∧
    (∀ first second redemption other reference another,
      RedeemsFirstAt digests world requests first redemption reference →
      RedeemsFirstAt digests world requests second other another →
      reference.id = another.id ∨ redemption.callbackId = other.callbackId → first = second) ∧
    (∀ position redemption reference, RedeemsAgainAt digests world requests position redemption reference →
      ∃ earlier < position, ∃ original, RedeemsFirstAt digests world requests earlier original reference ∧
        original.callbackId = redemption.callbackId ∧ original.callbackMessageId = redemption.callbackMessageId) ∧
    (∀ position redemption reference, RedeemsFirstAt digests world requests position redemption reference ∨
        RedeemsAgainAt digests world requests position redemption reference →
      ∃ earlier < position, ∃ surroundings issuance purpose,
        requests[earlier]? = some ⟨surroundings, .issue issuance⟩ ∧
        IssuedUnder issuance surroundings (momentAt digests world requests earlier) reference purpose ∧
        Redeemable redemption.requiredPurpose purpose) ∧
    (∀ position, (tablesAt digests world requests (position + 1)).redemptions ≠
        (tablesAt digests world requests position).redemptions →
      ∃ redemption reference, RedeemsFirstAt digests world requests position redemption reference) ∧
    (∀ request session failure after, performHumanAction digests world request session = .error failure after →
      after.store = session.store) := by
  refine ⟨?_, ?_, ?_, ?_, ?_, ?_⟩
  · intro position surroundings redemption result after here done
    have reached : humanActionsAt digests world requests (position + 1) = after := by
      rw [humanActionsAt, runTo_succ here]
      exact next_of_ok done
    rw [← reached] at done
    rcases returned_cases here done with ⟨_, other, _⟩ | ⟨found, reference, same, redeemed⟩
    · cases other
    · cases same
      exact ⟨reference, redeemed⟩
  · intro first second redemption other reference another redeems again shared
    exact redeems.unique again shared
  · intro position redemption reference again
    exact again.first distinct
  · intro position redemption reference redeemed
    rcases redeemed with ⟨_, _, first⟩ | ⟨_, _, again⟩
    · exact first.authorised.issued
    · exact again.authorised.issued
  · intro position changed
    rcases tablesAt_succ digests world requests position with same | ⟨issuance, _, _, issues⟩ | first
    · rw [same] at changed
      exact absurd rfl changed
    · exact absurd issues.redemptions changed
    · exact first
  · intro request session failure after raised
    exact performHumanAction_raises raised

def sampleDigests : Digests where
  sha256Hex := fun bytes => String.ofList (List.replicate 60 '0' ++ Nat.toDigits 10 (1000 + bytes.length))
  hmacBase64 := fun _ _ => String.ofList (List.replicate 43 'A')

def sampleContext : HumanActionContext := ⟨"42", "account", "42", "binding"⟩

def sampleSurroundings : Surroundings where
  proposals := [⟨7, "proposal", .parsedPendingConfirmation, some (2, String.ofList (List.replicate 64 'a'))⟩]
  drafts := []
  cards := []
  publications := []

def sampleIssuance : Issuance where
  key := []
  issuanceKey := "bridge-human-action-issue:" ++ String.ofList (List.replicate 32 '1')
  proposalPublicId := "proposal"
  expectedVersion := 2
  expectedContentHash := String.ofList (List.replicate 64 'a')
  context := sampleContext
  ttlSeconds := 600
  minimumRemainingSeconds := 0
  requireUnconsumedReplay := false
  allowedActions := [.edit]
  generation := none
  fallbackKeys := []
  actionPurposes := none
  issuanceEffect := fun _ _ _ => .ok ()

def sampleRedemption : Redemption where
  key := []
  reference := referencePrefix ++ String.ofList (List.replicate 24 'A')
  action := .edit
  context := sampleContext
  callbackId := "callback"
  callbackMessageId := 5
  requiredPurpose := none
  actionValidator := fun _ _ => .ok ()
  redemptionEffect := fun _ _ _ => .ok ()

/-- An issuance, a redemption and its repetition. -/
def sampleRequests : List HumanActionRequest :=
  [⟨sampleSurroundings, .issue sampleIssuance⟩, ⟨sampleSurroundings, .redeem sampleRedemption⟩,
    ⟨sampleSurroundings, .redeem sampleRedemption⟩]

def sampleWorld : World := ⟨fun reading => 100 + reading, fun _ => ""⟩

def sampleReturns (position : ℕ) (request : HumanActionRequest) : Bool :=
  match performHumanAction sampleDigests sampleWorld request
    (humanActionsAt sampleDigests sampleWorld sampleRequests position) with
  | .ok _ _ => true
  | .error _ _ => false

theorem human_action_references_redeemed_once_sample :
    DistinctCallbacks sampleDigests sampleRequests ∧
      (tablesAt sampleDigests sampleWorld sampleRequests 3).redemptions.length = 1 ∧
      ∃ reference, RedeemsFirstAt sampleDigests sampleWorld sampleRequests 1 sampleRedemption reference ∨
        RedeemsAgainAt sampleDigests sampleWorld sampleRequests 1 sampleRedemption reference := by
  have distinct : DistinctCallbacks sampleDigests sampleRequests := by
    intro first one second other _
    simp only [sampleRequests, List.filterMap_cons, HumanActionRequest.callbackId?, List.filterMap_nil,
      Set.mem_ofPred_eq, List.mem_cons, List.not_mem_nil, or_false, or_self] at one other
    rw [one, other]
  refine ⟨distinct, by decide +kernel, ?_⟩
  have returned : sampleReturns 1 ⟨sampleSurroundings, .redeem sampleRedemption⟩ = true := by decide +kernel
  unfold sampleReturns at returned
  cases ended : performHumanAction sampleDigests sampleWorld ⟨sampleSurroundings, .redeem sampleRedemption⟩
    (humanActionsAt sampleDigests sampleWorld sampleRequests 1) with
  | ok result after =>
    exact (human_action_references_redeemed_once sampleDigests sampleWorld sampleRequests distinct).1 1
      sampleSurroundings sampleRedemption result after rfl ended
  | error failure after =>
    rw [ended] at returned
    cases returned

end Runs

end FinanceCore.OpenclawStagingBridge
