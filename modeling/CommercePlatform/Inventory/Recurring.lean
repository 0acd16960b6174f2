/-
Orders that are reserved again.

The upsert of a reservation writes nothing but the status, so the row of an order keeps
the SKU and the quantity of the first reserve that was ever granted to it.  A release
gives back what the row says.  What was taken since the last release is another matter:
it is what the reserves that were granted since then have moved.

Here a stream of commands is handled one by one, and a ledger is kept beside the rows of
what each command has moved.  Releases are exact for as long as the two agree.
-/
import CommercePlatform.Inventory.Ledger

namespace CommercePlatform.Inventory

open Js Txn

variable [Platform]

/-! ### Commands -/

/-- What a command is for. -/
inductive Demand where
  | reserve (orderId sku : String)
  | release (orderId : String)
  deriving DecidableEq

def Demand.orderId : Demand → String
  | .reserve orderId _ => orderId
  | .release orderId => orderId

/-- The message asks for it. -/
def Demand.Describes (message : KafkaMessage) : Demand → Prop
  | .reserve _ sku => ¬ isRelease message ∧
      (∃ itemSku, message.value.get "itemSku" = .ok itemSku ∧ textParam itemSku = .ok (some sku)) ∧
      ∃ quantity : ℤ, 0 < quantity ∧
        message.value.get "quantity" = .ok (some (.num (.finite quantity)))
  | .release _ => isRelease message

/-- A command that is well-formed: of a positive quantity, if it is a reserve. -/
structure Command where
  message : KafkaMessage
  choices : Choices
  /-- The identifier of its event. -/
  key : String
  demand : Demand
  event : eventKey message = some key
  topic : textIn message.topic = .ok message.topic
  routingKey : textIn (consumedRoutingKey message) = .ok (consumedRoutingKey message)
  orderId : orderIdOf message.value = some demand.orderId
  describes : demand.Describes message

/-- The rows after the command, committed or rolled back. -/
def Command.serve (command : Command) (db : ServiceStore Row) : ServiceStore Row :=
  (atomically (handleInventoryCommand command.message command.choices) db).2

/-! ### What a command does to the stock -/

namespace Command

variable {command : Command} {db db' : ServiceStore Row} {orderId sku : String}

/-- The statements of a command once it is marked. -/
def body (command : Command) : InventoryTx Unit :=
  match command.demand with
  | .reserve _ _ => reserveInventory command.message.value command.choices
  | .release _ => releaseInventory command.message.value

/-- The rows with the command marked. -/
def marked (command : Command) (db : ServiceStore Row) : ServiceStore Row :=
  db.insert (ServiceKey.processed command.key)
    { topic := command.message.topic, routingKey := consumedRoutingKey command.message }

theorem ownRow_marked (key : Key) : ownRow (command.marked db) key = ownRow db key :=
  ownRow_insert_processed _

/-- A new command is marked and does what it is for. -/
theorem run_eq_ok (hnew : processedAt db command.key = none) :
    (handleInventoryCommand command.message command.choices).run db = .ok ((), db') ↔
      command.body.run (command.marked db) = .ok ((), db') := by
  obtain ⟨eventId, hid, hkey⟩ := of_eventKey command.event
  obtain ⟨orderIdValue, hget, -⟩ := of_orderIdOf command.orderId
  obtain ⟨eventType, htype⟩ : ∃ eventType, command.message.value.get "eventType" = .ok eventType := by
    cases hvalue : command.message.value with
    | null =>
        rw [hvalue] at hget
        simp [Json.get] at hget
    | _ => exact ⟨_, rfl⟩
  have hbody : (if isText eventType "ReleaseInventory" then releaseInventory command.message.value
      else reserveInventory command.message.value command.choices) = command.body := by
    have hdescribes := command.describes
    unfold body
    cases hdemand : command.demand with
    | reserve orderId sku =>
        rw [hdemand] at hdescribes
        exact if_neg fun hrelease => hdescribes.1 ⟨eventType, htype, hrelease⟩
    | release orderId =>
        rw [hdemand] at hdescribes
        obtain ⟨eventType', htype', hrelease⟩ := hdescribes
        obtain rfl := Except.ok.inj (htype.symm.trans htype')
        exact if_pos hrelease
  unfold handleInventoryCommand
  simp only [hid, htype, Tx.ofExcept_ok, Tx.bind_eq, Tx.pure_bind, hbody]
  rw [run_processOnce_eq_ok]
  constructor
  · intro ⟨key', topic, routingKey, hkey', htopic, hrouting, hcases⟩
    obtain rfl := Except.ok.inj (hkey.symm.trans hkey')
    obtain rfl := Except.ok.inj (command.topic.symm.trans htopic)
    obtain rfl := Except.ok.inj (command.routingKey.symm.trans hrouting)
    exact hcases.elim (fun hdone => absurd hnew hdone.1) fun hrun => hrun.2
  · intro hrun
    exact ⟨_, _, _, hkey, command.topic, command.routingKey, Or.inr ⟨hnew, hrun⟩⟩

theorem serve_of_ok (hnew : processedAt db command.key = none)
    (h : command.body.run (command.marked db) = .ok ((), db')) : command.serve db = db' := by
  unfold serve
  rw [atomically_of_ok ((run_eq_ok hnew).mpr h)]

/-- A command that raises leaves everything as it was. -/
theorem serve_of_raises (hnew : processedAt db command.key = none)
    (h : ∀ db', command.body.run (command.marked db) ≠ .ok ((), db')) : command.serve db = db := by
  unfold serve
  cases hrun : (handleInventoryCommand command.message command.choices).run db with
  | error e => rw [atomically_of_error hrun]
  | ok result => exact absurd ((run_eq_ok hnew).mp hrun) (h result.2)

/-- A reserve moves a positive amount, or nothing. -/
theorem serve_reserve (hdemand : command.demand = .reserve orderId sku)
    (hnew : processedAt db command.key = none) :
    SameStock (command.serve db) db ∨
      ∃ (amount : Int4) (old item : Item), 0 < amount.val ∧ ownRow db (.item sku) = some old ∧
        old.move amount.val = .ok item ∧
        SameStock (command.serve db) (Accounts.moved db sku orderId item
          (match ownRow db (.reservation orderId) with
            | none => { sku := sku, quantity := amount, status := .reserved }
            | some held => { held with status := .reserved })) := by
  by_cases hraises : ∀ db', command.body.run (command.marked db) ≠ .ok ((), db')
  · rw [serve_of_raises hnew hraises]
    exact Or.inl fun _ => rfl
  · obtain ⟨db', hrun⟩ : ∃ db', command.body.run (command.marked db) = .ok ((), db') := by
      simpa using hraises
    rw [serve_of_ok hnew hrun]
    have hdescribes := command.describes
    have horder := command.orderId
    unfold body at hrun
    rw [hdemand] at hrun hdescribes horder
    obtain ⟨-, ⟨itemSku, hsku, htext⟩, quantity, hpositive, hquantity⟩ := hdescribes
    obtain ⟨orderIdValue, hget, ⟨id, row, -, -, rfl⟩ | ⟨itemSku', quantity', -, -, sku', orderId', amount,
      old, item, id, row, hsku', htext', hquantity', hamount, hid, hitem, -, hmove, -, -, rfl⟩⟩ :=
        reserveInventory_cases hrun
    · refine Or.inl fun key => ?_
      rw [ownRow_insert_outbox, ownRow_marked]
    · obtain rfl := Except.ok.inj (hsku.symm.trans hsku')
      obtain rfl := Option.some.inj (Except.ok.inj (htext.symm.trans htext'))
      obtain rfl := Except.ok.inj (hquantity.symm.trans hquantity')
      obtain rfl := Option.some.inj (horder.symm.trans (orderIdOf_eq hget hid))
      have hval := int4Param_int hamount
      rw [ownRow_marked] at hitem
      refine Or.inr ⟨amount, old, item, by omega, hitem, hmove, fun key => ?_⟩
      rw [ownRow_insert_outbox, ownRow_marked]
      exact Accounts.ownRow_moved_congr (fun key => ownRow_marked key) key

/-- A release finds nothing to give back. -/
theorem serve_release_none (hdemand : command.demand = .release orderId)
    (hnew : processedAt db command.key = none)
    (hnone : ∀ row, ownRow db (.reservation orderId) = some row → row.status ≠ .reserved) :
    SameStock (command.serve db) db := by
  have horder := command.orderId
  rw [hdemand] at horder
  obtain ⟨orderIdValue, hget, hid⟩ := of_orderIdOf horder
  have hrun : command.body.run (command.marked db) = .ok ((), command.marked db) := by
    unfold body
    rw [hdemand]
    refine run_releaseInventory_of_none hget hid fun row hrow => ?_
    rw [ownRow_marked] at hrow
    exact hnone row hrow
  rw [serve_of_ok hnew hrun]
  exact fun key => ownRow_marked key

/-- It gives back what the row says, if the columns have room for it. -/
theorem serve_release (hdemand : command.demand = .release orderId)
    (hnew : processedAt db command.key = none) {row : Reservation} {old : Item}
    (hrow : ownRow db (.reservation orderId) = some row) (hreserved : row.status = .reserved)
    (hold : ownRow db (.item row.sku) = some old) :
    (∃ item, old.move (-row.quantity.val) = .ok item ∧ SameStock (command.serve db)
      (Accounts.moved db row.sku orderId item { row with status := .released })) ∨
    ((∀ item, old.move (-row.quantity.val) ≠ .ok item) ∧ SameStock (command.serve db) db) := by
  have horder := command.orderId
  rw [hdemand] at horder
  obtain ⟨orderIdValue, hget, hid⟩ := of_orderIdOf horder
  have hitem : ownRow (command.marked db) (.item row.sku) ≠ none := by
    rw [ownRow_marked, hold]
    simp
  have hbody : command.body = releaseInventory command.message.value := by
    unfold body
    rw [hdemand]
  have hrow' : ownRow (command.marked db) (.reservation orderId) = some row :=
    (ownRow_marked _).trans hrow
  by_cases hroom : ∃ item, old.move (-row.quantity.val) = .ok item
  · obtain ⟨item, hmove⟩ := hroom
    have hrun := (run_releaseInventory_eq_ok hget hid hrow' hreserved hitem).mpr
      ⟨old, item, (ownRow_marked _).trans hold, hmove, rfl⟩
    rw [← hbody] at hrun
    refine Or.inl ⟨item, hmove, fun key => ?_⟩
    rw [serve_of_ok hnew hrun]
    exact Accounts.ownRow_moved_congr (fun key => ownRow_marked key) key
  · refine Or.inr ⟨fun item hmove => hroom ⟨item, hmove⟩, ?_⟩
    have hraises : ∀ db', command.body.run (command.marked db) ≠ .ok ((), db') := by
      intro db' hrun
      rw [hbody] at hrun
      obtain ⟨old', item, hold', hmove, -⟩ :=
        (run_releaseInventory_eq_ok hget hid hrow' hreserved hitem).mp hrun
      obtain rfl := Option.some.inj (hold.symm.trans ((ownRow_marked _).symm.trans hold'))
      exact hroom ⟨item, hmove⟩
    rw [serve_of_raises hnew hraises]
    exact fun _ => rfl

end Command

/-! ### A stream of commands -/

namespace Ledger

/-- The grant, if `available_quantity` has gone down. -/
def grantOf (orderId sku : String) (db db' : ServiceStore Row) : List Grant :=
  if availableOf sku db' = availableOf sku db then []
  else [{ orderId := orderId, sku := sku, amount := availableOf sku db - availableOf sku db' }]

/-- A command is handled, and what it has moved is written down. -/
def record (ledger : Ledger) (command : Command) : Ledger :=
  let db' := command.serve ledger.db
  let holds := Function.update ledger.holds command.demand.orderId fun sku =>
    ledger.holds command.demand.orderId sku + (reservedOf sku db' - reservedOf sku ledger.db)
  match command.demand with
  | .reserve orderId sku =>
      { db := db'
        granted := ledger.granted ++ grantOf orderId sku ledger.db db'
        standing := ledger.standing ++ grantOf orderId sku ledger.db db'
        holds := holds }
  | .release orderId =>
      { db := db'
        granted := ledger.granted
        standing := ledger.standing.filter fun grant => grant.orderId ≠ orderId
        holds := holds }

/-- It holds of every command of a stream and the ledger that the command finds. -/
def Along (P : Ledger → Command → Prop) : Ledger → List Command → Prop
  | _, [] => True
  | ledger, command :: rest => P ledger command ∧ Along P (ledger.record command) rest

/-- A release gives back what was taken since the last one, and leaves its order nothing. -/
def ReleasesExactly (ledger : Ledger) (command : Command) : Prop :=
  ∀ orderId, command.demand = .release orderId → ∀ sku,
    availableOf sku (command.serve ledger.db) =
        availableOf sku ledger.db + taken (ledger.standingOf orderId) sku ∧
      reservedOf sku (command.serve ledger.db) =
        reservedOf sku ledger.db - taken (ledger.standingOf orderId) sku ∧
      (ledger.record command).holds orderId sku = 0

/-- A release comes upon such grants only. -/
def ReleasesReturnable (ledger : Ledger) (command : Command) : Prop :=
  ∀ orderId, command.demand = .release orderId → ledger.Returnable orderId

variable {ledger : Ledger} {command : Command} {db₀ : ServiceStore Row} {orderId sku : String}

theorem record_reserve (hdemand : command.demand = .reserve orderId sku) :
    ledger.record command =
      { db := command.serve ledger.db
        granted := ledger.granted ++ grantOf orderId sku ledger.db (command.serve ledger.db)
        standing := ledger.standing ++ grantOf orderId sku ledger.db (command.serve ledger.db)
        holds := Function.update ledger.holds orderId fun sku => ledger.holds orderId sku +
          (reservedOf sku (command.serve ledger.db) - reservedOf sku ledger.db) } := by
  unfold record
  rw [hdemand]
  rfl

theorem record_release (hdemand : command.demand = .release orderId) :
    ledger.record command =
      { db := command.serve ledger.db
        granted := ledger.granted
        standing := ledger.standing.filter fun grant => grant.orderId ≠ orderId
        holds := Function.update ledger.holds orderId fun sku => ledger.holds orderId sku +
          (reservedOf sku (command.serve ledger.db) - reservedOf sku ledger.db) } := by
  unfold record
  rw [hdemand]
  rfl

namespace Books

/-- A reserve keeps the books. -/
theorem record_reserve (h : Books db₀ ledger) (hdemand : command.demand = .reserve orderId sku)
    (hnew : processedAt ledger.db command.key = none) : Books db₀ (ledger.record command) := by
  rw [Ledger.record_reserve hdemand]
  rcases Command.serve_reserve hdemand hnew with hsame | ⟨amount, old, item, hpos, hold, hmove, hsame⟩
  · have hgrant : grantOf orderId sku ledger.db (command.serve ledger.db) = [] :=
      if_pos (hsame.availableOf sku)
    rw [hgrant, List.append_nil, List.append_nil]
    refine h.of_same hsame fun orderId' sku' => ?_
    by_cases horder : orderId' = orderId
    · subst horder
      simp [hsame.reservedOf]
    · rw [Function.update_of_ne horder]
  · have hmoved := hsame.moved hold hmove
    have havailable := (hmoved sku).1
    rw [if_pos rfl] at havailable
    have hgrant : grantOf orderId sku ledger.db (command.serve ledger.db) =
        [{ orderId := orderId, sku := sku, amount := amount.val }] := by
      have hne : ¬ availableOf sku (command.serve ledger.db) = availableOf sku ledger.db := by omega
      have hamount : availableOf sku ledger.db - availableOf sku (command.serve ledger.db) =
          amount.val := by omega
      unfold grantOf
      rw [if_neg hne, hamount]
    rw [hgrant]
    refine h.grant hpos hold hmove hsame fun orderId' sku' => ?_
    by_cases horder : orderId' = orderId
    · subst horder
      rw [Function.update_self, (hmoved sku').2]
      by_cases hsku : sku' = sku
      · simp [hsku]
      · simp [hsku]
    · rw [Function.update_of_ne horder]
      simp [horder]

/-- What a release finds, and what it has done. -/
theorem release_cases (h : Books db₀ ledger) (hdemand : command.demand = .release orderId)
    (hnew : processedAt ledger.db command.key = none) :
    (ledger.standingOf orderId = [] ∧ SameStock (command.serve ledger.db) ledger.db ∧
      ∀ row, ownRow ledger.db (.reservation orderId) = some row → row.status ≠ .reserved) ∨
    ∃ row old, ledger.standingOf orderId ≠ [] ∧
      ownRow ledger.db (.reservation orderId) = some row ∧ row.status = .reserved ∧
      ownRow ledger.db (.item row.sku) = some old ∧
      ((∃ item, old.move (-row.quantity.val) = .ok item ∧ SameStock (command.serve ledger.db)
          (Accounts.moved ledger.db row.sku orderId item { row with status := .released })) ∨
        ((∀ item, old.move (-row.quantity.val) ≠ .ok item) ∧
          SameStock (command.serve ledger.db) ledger.db)) := by
  by_cases hnone : ledger.standingOf orderId = []
  · have hfree := h.not_reserved hnone
    exact Or.inl ⟨hnone, Command.serve_release_none hdemand hnew hfree, hfree⟩
  · obtain ⟨row, old, hrow, hreserved, hold⟩ := h.exists_reserved hnone
    exact Or.inr ⟨row, old, hnone, hrow, hreserved, hold,
      Command.serve_release hdemand hnew hrow hreserved hold⟩

/-- What a release leaves its order is what it has not given back. -/
theorem holds_record (h : Books db₀ ledger) (hdemand : command.demand = .release orderId)
    (sku : String) : (ledger.record command).holds orderId sku =
      taken (ledger.standingOf orderId) sku +
        (reservedOf sku (command.serve ledger.db) - reservedOf sku ledger.db) := by
  rw [record_release hdemand, ← h.holds]
  simp

/-- **A release is exact if and only if the grants it comes upon are returnable.** -/
theorem releasesExactly_iff (h : Books db₀ ledger)
    (hnew : processedAt ledger.db command.key = none) :
    ledger.ReleasesExactly command ↔ ledger.ReleasesReturnable command := by
  unfold ReleasesExactly ReleasesReturnable
  refine forall₂_congr fun orderId hdemand => ?_
  rcases h.release_cases hdemand hnew with ⟨hnone, hsame, -⟩ |
    ⟨row, old, hsome, hrow, hreserved, hold, hcases⟩
  · constructor
    · intro _
      exact Or.inl hnone
    · intro _ sku
      rw [h.holds_record hdemand, hsame.availableOf, hsame.reservedOf, hnone]
      simp [taken]
  · rw [h.returnable_iff hrow hreserved]
    constructor
    · intro hexact sku
      have hreturned := (hexact sku).1
      rcases hcases with ⟨item, hmove, hsame⟩ | ⟨-, hsame⟩
      · rw [(hsame.moved hold hmove sku).1] at hreturned
        split at hreturned
        · rw [if_pos ‹_›]
          omega
        · rw [if_neg ‹_›]
          omega
      · -- A release that raises gives nothing back, and something was taken.
        obtain ⟨grant, hgrant⟩ := List.exists_mem_of_ne_nil _ hsome
        have hpositive := h.positive_standingOf orderId
        have hle := le_taken hpositive hgrant
        have hone := hpositive grant hgrant
        have hreturned := (hexact grant.sku).1
        rw [hsame.availableOf] at hreturned
        omega
    · intro htaken sku
      obtain ⟨item, hmove⟩ := h.exists_move hold ((htaken row.sku).trans (if_pos rfl))
      rcases hcases with ⟨item', hmove', hsame⟩ | ⟨hraises, -⟩
      · obtain ⟨havailable, hreserved'⟩ := hsame.moved hold hmove' sku
        rw [h.holds_record hdemand, havailable, hreserved', htaken sku]
        split
        · refine ⟨?_, ?_, ?_⟩ <;> omega
        · refine ⟨?_, ?_, ?_⟩ <;> omega
      · exact absurd hmove (hraises item)

/-- A release of returnable grants does not raise. -/
theorem releases (h : Books db₀ ledger) (hdemand : command.demand = .release orderId)
    (hnew : processedAt ledger.db command.key = none) (hreturnable : ledger.Returnable orderId) :
    (SameStock (command.serve ledger.db) ledger.db ∧
      ∀ row, ownRow ledger.db (.reservation orderId) = some row → row.status ≠ .reserved) ∨
    ∃ row old item, ownRow ledger.db (.reservation orderId) = some row ∧
      ownRow ledger.db (.item row.sku) = some old ∧ SameStock (command.serve ledger.db)
        (Accounts.moved ledger.db row.sku orderId item { row with status := .released }) := by
  rcases h.release_cases hdemand hnew with ⟨-, hsame, hfree⟩ |
    ⟨row, old, -, hrow, hreserved, hold, ⟨item, -, hsame⟩ | ⟨hraises, -⟩⟩
  · exact Or.inl ⟨hsame, hfree⟩
  · exact Or.inr ⟨row, old, item, hrow, hold, hsame⟩
  · have htaken := (h.returnable_iff hrow hreserved).mp hreturnable row.sku
    obtain ⟨item, hmove⟩ := h.exists_move hold (htaken.trans (if_pos rfl))
    exact absurd hmove (hraises item)

/-- And it keeps the books. -/
theorem record_release (h : Books db₀ ledger) (hdemand : command.demand = .release orderId)
    (hnew : processedAt ledger.db command.key = none) (hreturnable : ledger.Returnable orderId) :
    Books db₀ (ledger.record command) := by
  have hexact : ledger.ReleasesExactly command := by
    refine (h.releasesExactly_iff hnew).mpr fun orderId' hdemand' => ?_
    obtain rfl := Demand.release.inj (hdemand.symm.trans hdemand')
    exact hreturnable
  have hexact' := hexact orderId hdemand
  have hcases := h.releases hdemand hnew hreturnable
  rw [Ledger.record_release hdemand]
  refine h.release (fun sku => ⟨(hexact' sku).1, (hexact' sku).2.1⟩) ?_ ?_ ?_ ?_
  · intro orderId' sku
    by_cases horder : orderId' = orderId
    · subst horder
      have hzero := (hexact' sku).2.2
      rw [Ledger.record_release hdemand] at hzero
      rw [if_pos rfl]
      exact hzero
    · rw [Function.update_of_ne horder, if_neg horder]
  · intro orderId' horder
    rcases hcases with ⟨hsame, -⟩ | ⟨row, old, item, -, -, hsame⟩
    · exact hsame _
    · rw [hsame, Accounts.reservation_moved, if_neg horder]
  · rcases hcases with ⟨hsame, hfree⟩ | ⟨row, old, item, hrow, -, hsame⟩
    · rw [hsame]
      cases hrow : ownRow ledger.db (.reservation orderId) with
      | none => rfl
      | some row =>
          -- A row that is not reserved is released, and stays what it is.
          have hstatus := hfree row hrow
          obtain ⟨sku, quantity, status⟩ := row
          cases status with
          | reserved => exact absurd rfl hstatus
          | released => rfl
    · rw [hrow, hsame, Accounts.reservation_moved, if_pos rfl]
  · intro sku
    rcases hcases with ⟨hsame, -⟩ | ⟨row, old, item, -, hold, hsame⟩
    · rw [hsame]
    · rw [hsame, Accounts.item_moved]
      split
      · rename_i hsku
        subst hsku
        rw [hold]
        simp
      · exact Iff.rfl

/-- **A command keeps the books**, unless it is a release of grants that are not returnable. -/
theorem record (h : Books db₀ ledger) (hnew : processedAt ledger.db command.key = none)
    (hreturnable : ledger.ReleasesReturnable command) : Books db₀ (ledger.record command) := by
  cases hdemand : command.demand with
  | reserve orderId sku => exact h.record_reserve hdemand hnew
  | release orderId => exact h.record_release hdemand hnew (hreturnable orderId hdemand)

/-- A command marks no event but its own. -/
theorem processedAt_record (h : Books db₀ ledger) {key : String} (hne : key ≠ command.key)
    (hnone : processedAt ledger.db key = none) :
    processedAt (ledger.record command).db key = none := by
  have hdb : (ledger.record command).db = command.serve ledger.db := by
    cases hdemand : command.demand with
    | reserve orderId sku => rw [Ledger.record_reserve hdemand]
    | release orderId => rw [Ledger.record_release hdemand]
  rw [hdb]
  unfold Command.serve
  cases hrun : (handleInventoryCommand command.message command.choices).run ledger.db with
  | error e =>
      rw [atomically_of_error hrun]
      exact hnone
  | ok result =>
      obtain ⟨_, db'⟩ := result
      rw [atomically_of_ok hrun]
      obtain ⟨key', hkey', ⟨-, rfl⟩ | ⟨row, -, heffect⟩⟩ := handleInventoryCommand_effect h.item hrun
      · exact hnone
      · obtain rfl := Option.some.inj (command.event.symm.trans hkey')
        have hmarked : processedAt (ledger.db.insert (ServiceKey.processed command.key) row) key =
            none := by
          unfold processedAt at hnone ⊢
          rw [Finmap.lookup_insert_of_ne _ (by simpa using hne)]
          exact hnone
        cases heffect with
        | ignored => exact hmarked
        | released => simpa using hmarked
        | rejected => simpa using hmarked
        | reserved => simpa using hmarked

end Books

/-- What holds of each command under the books, if releases are returnable, holds along a stream. -/
theorem along_iff (commands : List Command) (h : Books db₀ ledger)
    (hdistinct : (commands.map Command.key).Nodup)
    (hnew : ∀ command ∈ commands, processedAt ledger.db command.key = none) :
    ledger.Along ReleasesExactly commands ↔ ledger.Along ReleasesReturnable commands := by
  induction commands generalizing ledger with
  | nil => exact Iff.rfl
  | cons command rest ih =>
      have hfirst := hnew command (by simp)
      have hiff := h.releasesExactly_iff hfirst
      obtain ⟨hnot, hrest⟩ := List.nodup_cons.mp hdistinct
      show _ ∧ _ ↔ _ ∧ _
      rw [hiff]
      refine and_congr_right fun hreturnable => ?_
      refine ih (h.record hfirst hreturnable) hrest fun other hother => ?_
      refine h.processedAt_record ?_ (hnew other (List.mem_cons_of_mem _ hother))
      intro heq
      exact hnot (heq ▸ List.mem_map_of_mem hother)

end Ledger

/--
**Every release of a stream is exact if and only if every release comes upon returnable grants.**
The stream starts with no reservation, and reserves and releases orders in any order, any of them
more than once.
-/
theorem exact_compensation (db₀ : ServiceStore Row) (commands : List Command)
    (hempty : ∀ orderId, ownRow db₀ (.reservation orderId) = none)
    (hdistinct : (commands.map Command.key).Nodup)
    (hnew : ∀ command ∈ commands, processedAt db₀ command.key = none) :
    (Ledger.opened db₀).Along Ledger.ReleasesExactly commands ↔
      (Ledger.opened db₀).Along Ledger.ReleasesReturnable commands :=
  Ledger.along_iff commands (Ledger.Books.opened hempty) hdistinct hnew

end CommercePlatform.Inventory

/-! ### An order of chairs, reserved twice -/

namespace CommercePlatform.Inventory.Reordered

open Js Txn

@[reducible] def platform : Platform := .ascii
  [("", "e3b0c44298fc1c149afbf4c8996fb92427ae41e4649b934ca495991b7852b855")] (by decide)

attribute [local instance] platform

def orderId : String := "0d9c2a4e-5f0b-4a1e-8f57-6f2f1c7e9b01"

def reserve (eventId : String) (quantity : ℤ) : KafkaMessage :=
  publishEvent topics.inventory routingKeys.reserveInventory
    (.obj [("eventType", .str "ReserveInventoryRequested"), ("orderId", .str orderId),
      ("itemSku", .str "SKU-CHAIR-001"), ("quantity", .num (.finite quantity)),
      ("totalAmount", .num (.finite 90)), ("currency", .str "USD")])
    [("eventId", .str eventId)]

def release (eventId : String) : KafkaMessage :=
  publishEvent topics.inventory routingKeys.releaseInventory
    (.obj [("eventType", .str "ReleaseInventory"), ("orderId", .str orderId)])
    [("eventId", .str eventId)]

theorem describes_reserve (eventId : String) {quantity : ℤ} (h : 0 < quantity) :
    (Demand.reserve orderId "SKU-CHAIR-001").Describes (reserve eventId quantity) := by
  refine ⟨?_, ⟨some (.str "SKU-CHAIR-001"), rfl, by decide⟩, quantity, h, rfl⟩
  rintro ⟨eventType, htype, hrelease⟩
  obtain rfl : some (.str "ReserveInventoryRequested") = eventType := Except.ok.inj htype
  exact absurd hrelease (by decide)

theorem describes_release (eventId : String) :
    (Demand.release orderId).Describes (release eventId) :=
  ⟨some (.str "ReleaseInventory"), rfl, by decide⟩

def choices : Choices where
  eventId := "5a1f6c3b-0f0e-4f0c-9a55-2f8b3f1d7c10"
  rowId := "5a1f6c3b-0f0e-4f0c-9a55-2f8b3f1d7c11"
  now := 0

def choices' : Choices where
  eventId := "5a1f6c3b-0f0e-4f0c-9a55-2f8b3f1d7c12"
  rowId := "5a1f6c3b-0f0e-4f0c-9a55-2f8b3f1d7c13"
  now := 1

/-- Two chairs. -/
def first : Command where
  message := reserve "9b2d7c10-1111-4c1c-8a1a-000000000001" 2
  choices := choices
  key := "9b2d7c10-1111-4c1c-8a1a-000000000001"
  demand := .reserve orderId "SKU-CHAIR-001"
  event := by decide
  topic := by decide
  routingKey := by decide
  orderId := by decide
  describes := describes_reserve _ (by decide)

/-- Three more. -/
def second : Command where
  message := reserve "9b2d7c10-1111-4c1c-8a1a-000000000002" 3
  choices := choices'
  key := "9b2d7c10-1111-4c1c-8a1a-000000000002"
  demand := .reserve orderId "SKU-CHAIR-001"
  event := by decide
  topic := by decide
  routingKey := by decide
  orderId := by decide
  describes := describes_reserve _ (by decide)

def third : Command where
  message := release "9b2d7c10-1111-4c1c-8a1a-000000000003"
  choices := choices
  key := "9b2d7c10-1111-4c1c-8a1a-000000000003"
  demand := .release orderId
  event := by decide
  topic := by decide
  routingKey := by decide
  orderId := by decide
  describes := describes_release _

/-- Two chairs again. -/
def fourth : Command where
  message := reserve "9b2d7c10-1111-4c1c-8a1a-000000000004" 2
  choices := choices'
  key := "9b2d7c10-1111-4c1c-8a1a-000000000004"
  demand := .reserve orderId "SKU-CHAIR-001"
  event := by decide
  topic := by decide
  routingKey := by decide
  orderId := by decide
  describes := describes_reserve _ (by decide)

def fifth : Command where
  message := release "9b2d7c10-1111-4c1c-8a1a-000000000005"
  choices := choices
  key := "9b2d7c10-1111-4c1c-8a1a-000000000005"
  demand := .release orderId
  event := by decide
  topic := by decide
  routingKey := by decide
  orderId := by decide
  describes := describes_release _

def stock : ServiceStore Row :=
  Finmap.singleton (.own (.item "SKU-CHAIR-001"))
    { availableQuantity := .ofNat 24 (by decide), reservedQuantity := .ofNat 1 (by decide) }

theorem empty (o : String) : ownRow stock (.reservation o) = none := by
  have hne : (ServiceKey.own (Key.reservation o) : ServiceKey Key) ∉ stock := by
    intro hmem
    have heq := (Finmap.mem_singleton _ _ _).mp hmem
    simp at heq
  exact Finmap.lookup_eq_none.mpr hne

theorem unprocessed (key : String) : processedAt stock key = none := by
  have hne : (ServiceKey.processed key : ServiceKey Key) ∉ stock := by
    intro hmem
    have heq := (Finmap.mem_singleton _ _ _).mp hmem
    simp at heq
  exact Finmap.lookup_eq_none.mpr hne

/-- Five chairs are taken, and a release gives back the two of the first reserve. -/
theorem two_of_five :
    (∀ o, ownRow stock (.reservation o) = none) ∧
    ([first, second, third].map Command.key).Nodup ∧
    (∀ command ∈ [first, second, third], processedAt stock command.key = none) ∧
    ¬ (Ledger.opened stock).Along Ledger.ReleasesExactly [first, second, third] := by
  refine ⟨empty, by decide, fun command _ => unprocessed command.key, ?_⟩
  intro halong
  have hexact := (halong.2.2.1 orderId rfl "SKU-CHAIR-001").1
  revert hexact
  decide +kernel

/-- Released and reserved again for as many chairs, the order is released of them exactly. -/
theorem returned :
    (Ledger.opened stock).Along Ledger.ReleasesExactly [first, third, fourth, fifth] := by
  have hdemand : ∀ {command : Command} {o sku o' : String}, command.demand = .reserve o sku →
      command.demand = .release o' → False := by
    intro command o sku o' hreserve hrelease
    rw [hreserve] at hrelease
    simp at hrelease
  refine (exact_compensation stock [first, third, fourth, fifth] empty (by decide)
    fun command _ => unprocessed command.key).mpr
      ⟨fun o h => (hdemand rfl h).elim, ?_, fun o h => (hdemand rfl h).elim, ?_, trivial⟩
  · intro o h
    obtain rfl : orderId = o := Demand.release.inj h
    refine Ledger.returnable_of_one
      { orderId := orderId, sku := "SKU-CHAIR-001", amount := 2 } ?_
    decide +kernel
  · intro o h
    obtain rfl : orderId = o := Demand.release.inj h
    refine Ledger.returnable_of_one
      { orderId := orderId, sku := "SKU-CHAIR-001", amount := 2 } ?_
    decide +kernel

end CommercePlatform.Inventory.Reordered
