/-
What the schema of a request body says of the rows.

`orderCreateSchema` is applied to what was sent, and what is stored is not what was sent: the
amount is rounded to the cent, and the currency is in upper case.  An amount below half a cent
becomes nothing, and there are characters whose upper case is longer.  All else of a row is as
the schema wants it, and what does not fit into its column is not stored at all.
-/
import Mathlib.Tactic.Linarith
import CommercePlatform.Saga.Books

namespace CommercePlatform

open Js Txn

/-! ### Rows as request bodies -/

/-- The number that a stored amount is. -/
def Numeric12_2.toNumber : Numeric12_2 → Number
  | .nan => .nan
  | .cents c _ => .finite (c / 100)

/-- The part of a row that the schema is about. -/
def Orders.OrderRow.asBody (row : Orders.OrderRow) : Json := .obj [
  ("itemSku", .str row.itemSku),
  ("quantity", .num (.finite row.quantity.val)),
  ("totalAmount", .num row.totalAmount.toNumber),
  ("currency", .str row.currency)]

theorem Orders.OrderRow.valid_iff {row : Orders.OrderRow} {c : ℤ} {fits : |c| < 1000000000000}
    (hamount : row.totalAmount = .cents c fits) :
    orderCreateSchema row.asBody ≠ none ↔ 3 ≤ utf16Length row.itemSku ∧ 0 < row.quantity.val ∧
      0 < c ∧ utf16Length row.currency = 3 := by
  have hpositive : (Number.finite 0).lt (.finite ((c : ℚ) / 100)) = true ↔ 0 < c := by
    rw [Number.lt_finite, decide_eq_true_iff]
    constructor
    · intro h
      have hscaled : (0 : ℚ) < c := by linarith
      exact_mod_cast hscaled
    · intro h
      have hscaled : (0 : ℚ) < c := by exact_mod_cast h
      linarith
  have hwhole : ((row.quantity.val : ℚ)).den = 1 ∧
      (0 < ((row.quantity.val : ℚ)).num ↔ 0 < row.quantity.val) := by simp
  rw [← hpositive, ← hwhole.2]
  have hread : orderCreateSchema row.asBody ≠ none ↔ 3 ≤ utf16Length row.itemSku ∧
      (((row.quantity.val : ℚ)).den = 1 ∧ 0 < ((row.quantity.val : ℚ)).num) ∧
      (Number.finite 0).lt row.totalAmount.toNumber = true ∧ utf16Length row.currency = 3 := by
    show dite _ _ _ ≠ none ↔ _
    split
    · rename_i hvalid
      exact ⟨fun _ => hvalid, fun _ => by simp⟩
    · rename_i hinvalid
      exact ⟨fun hne => absurd rfl hne, fun hvalid => absurd hvalid hinvalid⟩
  rw [hread, hamount]
  constructor
  · rintro ⟨hsku, ⟨-, hquantity⟩, hrest⟩
    exact ⟨hsku, hquantity, hrest⟩
  · rintro ⟨hsku, hquantity, hrest⟩
    exact ⟨hsku, ⟨hwhole.1, hquantity⟩, hrest⟩

/-! ### Amounts and quantities that are stored -/

/-- Half a cent is rounded up to one, and anything less to none. -/
theorem Numeric12_2.round_pos_iff {amount : ℚ} (hpos : 0 < amount) :
    0 < Numeric12_2.round amount ↔ 1 / 200 ≤ amount := by
  have hround : Numeric12_2.round amount = ⌊amount * 100 + 1 / 2⌋ := if_pos hpos.le
  have hle : 0 < Numeric12_2.round amount ↔ ((1 : ℤ) : ℚ) ≤ amount * 100 + 1 / 2 := by
    rw [hround, ← Int.le_floor]
    omega
  rw [hle]
  constructor
  · intro h
    push_cast at h
    linarith
  · intro h
    push_cast
    linarith

/-- The quantity is no `INTEGER`, or the amount no `NUMERIC(12,2)`. -/
def OrderCreateInput.Overflows (body : OrderCreateInput) : Prop :=
  2147483647 < body.quantity ∨
    ∀ amount, body.totalAmount = .finite amount → 1000000000000 ≤ |Numeric12_2.round amount|

variable [Platform]

/-- What was stored has fitted. -/
theorem Orders.OrderRow.Stores.not_overflows {row : Orders.OrderRow}
    {call : Orders.CreateOrderCall} (h : row.Stores call) : ¬ call.body.Overflows := by
  rintro (hquantity | hamount)
  · have hval := h.quantity_val
    have hupper := row.quantity.upper
    omega
  · obtain ⟨amount, hfinite⟩ := h.finite
    obtain ⟨fits, -⟩ := h.cents hfinite
    have hlarge := hamount amount hfinite
    omega

/-- What the schema says of a row, for the body that it was stored from. -/
theorem Orders.OrderRow.Stores.valid_iff {row : Orders.OrderRow} {call : Orders.CreateOrderCall}
    (h : row.Stores call) {amount : ℚ} (hamount : call.body.totalAmount = .finite amount) :
    orderCreateSchema row.asBody ≠ none ↔
      1 / 200 ≤ amount ∧ utf16Length (Platform.toUpperCase call.body.currency) = 3 := by
  obtain ⟨fits, hcents⟩ := h.cents hamount
  have hpos : 0 < amount := by
    have hpositive := call.body.totalAmount_pos
    rw [hamount] at hpositive
    simpa using hpositive
  have hsku : row.itemSku = call.body.itemSku := textIn_eq_ok h.itemSku
  have hcurrency : row.currency = Platform.toUpperCase call.body.currency :=
    textIn_eq_ok h.currency
  have hquantity : row.quantity.val = call.body.quantity := h.quantity_val
  rw [Orders.OrderRow.valid_iff hcents, Numeric12_2.round_pos_iff hpos, hsku, hcurrency, hquantity]
  constructor
  · rintro ⟨-, -, hround, hlength⟩
    exact ⟨hround, hlength⟩
  · rintro ⟨hround, hlength⟩
    exact ⟨call.body.itemSku_min, call.body.quantity_pos, hround, hlength⟩

/-! ### Steps of a call -/

namespace System

omit [Platform] in
/-- The call that a transaction was opened for. -/
def creating (s : System) (i : ℕ) : Option Orders.CreateOrderCall :=
  match Orders.Desk.jobOf s.orders.node i with
  | some (.create call _ _) => some call
  | _ => none

omit [Platform] in
/-- The call of `createOrder` that a step is part of. -/
def callOf (s : System) : SystemAct → Option Orders.CreateOrderCall
  | .lookUp _ call => some call
  | .insert c _ _ => s.orders.waiting c
  | .work .orders (.exec i) => s.creating i
  | .work .orders (.commit i) => s.creating i
  | .work .orders (.rollback i) => s.creating i
  | _ => none

omit [Platform] in
theorem creating_eq_some {s : System} {i : ℕ} {call : Orders.CreateOrderCall}
    (h : s.creating i = some call) : ∃ orderId choices,
      Orders.Desk.jobOf s.orders.node i = some (.create call orderId choices) := by
  unfold creating at h
  split at h
  · rename_i orderId choices hjob
    obtain rfl := Option.some.inj h
    exact ⟨orderId, choices, hjob⟩
  · simp at h

end System

namespace Law

variable {stock : ServiceStore Inventory.Row} {sagas : Sagas} {owner : String → Option Owner}
  {s s' : System}

/-- A transaction that commits has created an order. -/
theorem created_of_commit (h : Law stock sagas owner s) {i : ℕ} {call : Orders.CreateOrderCall}
    (hcreating : s.creating i = some call) (hs : s.step (.work .orders (.commit i)) = some s') :
    ∃ row : Orders.OrderRow, row.Stores call := by
  obtain ⟨orderId, choices, hjob⟩ := System.creating_eq_some hcreating
  obtain ⟨sagas', owner', hlaw, -⟩ := h.work hs
  have hcreates : s.creates (.work .orders (.commit i)) = some (orderId, call) := by
    simp [System.creates, Orders.Desk.creates, hjob]
  obtain ⟨saga, -, rfl⟩ := hlaw.call_of_created (System.createdFor_of_creates hs hcreates)
  exact ⟨saga.row, saga.stored⟩

/-- **No step of a call whose body does not fit changes a row.** -/
theorem unchanged_of_overflows (h : Law stock sagas owner s) {act : SystemAct}
    (hs : s.step act = some s') {call : Orders.CreateOrderCall} (hcall : s.callOf act = some call)
    (hoverflows : call.body.Overflows) : s'.ordersDb = s.ordersDb := by
  have hquiet : ∀ act' : Txn.Act Orders.Job, (∀ i, act' ≠ .commit i) → ∀ node,
      s.orders.node.step Orders.Job.body (.business act') = some node →
        node.server.db = s.orders.node.server.db := by
    intro act' hact' node hnode
    obtain ⟨server, hserver, rfl⟩ := Option.map_eq_some_iff.mp hnode
    exact Server.step_db hserver hact'
  cases act with
  | lookUp c call' =>
      obtain ⟨horders, -⟩ := System.lookUp_cases hs
      obtain ⟨-, -, hnode, -⟩ := Orders.Desk.lookUp_cases horders
      show s'.orders.node.server.db = s.orders.node.server.db
      rw [hnode]
  | insert c orderId choices =>
      obtain ⟨-, horders, -⟩ := System.insert_cases hs
      obtain ⟨_, -, hnode, -⟩ := Orders.Desk.insert_cases horders
      exact hquiet _ (by simp) _ hnode
  | deliver service i source offset choices => simp [System.callOf] at hcall
  | work service w =>
      cases service with
      | inventory => simp [System.callOf] at hcall
      | payments => simp [System.callOf] at hcall
      | orders =>
          obtain ⟨orders, horders, rfl⟩ := Option.map_eq_some_iff.mp hs
          obtain ⟨hnode, -, -⟩ := Orders.Desk.work_cases horders
          cases w with
          | exec i => exact hquiet (.exec i) (by simp) _ hnode
          | rollback i => exact hquiet (.rollback i) (by simp) _ hnode
          | commit i =>
              obtain ⟨row, hstores⟩ := h.created_of_commit hcall hs
              exact absurd hoverflows hstores.not_overflows
          | startTick t scan => simp [System.callOf] at hcall
          | send t outcome => simp [System.callOf] at hcall
          | mark t now outcome => simp [System.callOf] at hcall
          | kill t => simp [System.callOf] at hcall

end Law

/--
**When a stored order is valid.**  The row of an order satisfies the schema of the body that it
was created from exactly if the amount is at least half a cent and the currency in upper case
is as long as it was.  A body that does not fit into its columns never changes a row.
-/
theorem stored_orders (stock : ServiceStore Inventory.Row) (hstock : OnlyItems stock) {s : System}
    (hreach : System.Reach stock s) :
    (∀ o call, s.CreatedFor o call → ∃ row amount, ownRow s.ordersDb (.order o) = some row ∧
      call.body.totalAmount = .finite amount ∧
      (orderCreateSchema row.asBody ≠ none ↔
        1 / 200 ≤ amount ∧ utf16Length (Platform.toUpperCase call.body.currency) = 3)) ∧
    ∀ act s' call, s.step act = some s' → s.callOf act = some call → call.body.Overflows →
      s'.ordersDb = s.ordersDb := by
  obtain ⟨sagas, owner, hlaw⟩ := Law.of_reach hstock hreach
  constructor
  · intro o call hcreated
    obtain ⟨saga, hsaga, rfl⟩ := hlaw.call_of_created hcreated
    obtain ⟨amount, hamount⟩ := saga.stored.finite
    exact ⟨_, amount, hlaw.orderRow hsaga, hamount, saga.stored.valid_iff hamount⟩
  · intro act s' call hs hcall hoverflows
    exact hlaw.unchanged_of_overflows hs hcall hoverflows

end CommercePlatform

/-! ### An order for less than half a cent -/

namespace CommercePlatform.SubCent

open Js Txn Sale

@[reducible] def platform : Platform := .ascii
  [("\x7b\"itemSku\":\"SKU-CHAIR-001\",\"quantity\":2,\"totalAmount\":0.004,\"currency\":\"USD\"\x7d",
    "2b17b6c78f617c99e6616ff4a3bceb80f07194b85a494dffbd06aa84fd63da4c")] (by decide)

attribute [local instance] platform

def call : Orders.CreateOrderCall :=
  { Sale.call with
    body := { Sale.body with
      totalAmount := .finite (4 / 1000)
      totalAmount_pos := by decide +kernel } }

/-- The order is placed. -/
def acts : List SystemAct :=
  [.lookUp 1 call, .insert 1 (uuid 1) (choices 2 3)] ++ transaction .orders 1 6

theorem exists_placed : ∃ s, System.run acts (System.start stock) = some s ∧
    s.CreatedFor (uuid 1) call ∧
    ∃ row, ownRow s.ordersDb (.order (uuid 1)) = some row ∧ orderCreateSchema row.asBody = none := by
  have hends : ((System.run acts (System.start stock)).any fun s =>
      .ended 1 call (.answered (.created (uuid 1))) ∈ s.orders.log &&
        (ownRow s.ordersDb (.order (uuid 1))).any fun row =>
          (orderCreateSchema row.asBody).isNone) = true := by
    decide +kernel
  obtain ⟨s, hs, hends⟩ := (Option.any_eq_true _ _).mp hends
  obtain ⟨hcreated, hends⟩ := (Bool.and_eq_true ..).mp hends
  obtain ⟨row, hrow, hnone⟩ := (Option.any_eq_true _ _).mp hends
  exact ⟨s, hs, ⟨1, of_decide_eq_true hcreated⟩, row, hrow, Option.isNone_iff_eq_none.mp hnone⟩

/-- The schema has accepted the body, and its row has nothing to pay. -/
theorem stored_invalid : ∃ s row, System.Reach stock s ∧ s.CreatedFor (uuid 1) call ∧
    ownRow s.ordersDb (.order (uuid 1)) = some row ∧ orderCreateSchema row.asBody = none := by
  obtain ⟨s, hs, hcreated, row, hrow, hnone⟩ := exists_placed
  exact ⟨s, row, System.steps_of_run hs, hcreated, hrow, hnone⟩

theorem stored_orders_placed : ∃ s, System.run acts (System.start stock) = some s ∧
    ∃ row amount, ownRow s.ordersDb (.order (uuid 1)) = some row ∧
      call.body.totalAmount = .finite amount ∧
      (orderCreateSchema row.asBody ≠ none ↔
        1 / 200 ≤ amount ∧ utf16Length (Platform.toUpperCase call.body.currency) = 3) := by
  obtain ⟨s, hs, hcreated, -⟩ := exists_placed
  exact ⟨s, hs, (stored_orders stock onlyItems (System.steps_of_run hs)).1 (uuid 1) call hcreated⟩

end CommercePlatform.SubCent
