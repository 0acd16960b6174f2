/-
What the books say of a payment.

The amount of an order goes as it was sent through three payloads, and is rounded to the
cent only where it is stored.  The two rows that hold it agree, as they round the same
number; but the limit is held against the number and not against the row, and so an
amount that is less than half a cent over the limit is declined where the books have the
limit itself.
-/
import Mathlib.Tactic.Linarith
import CommercePlatform.Saga.Idempotency

namespace CommercePlatform

open Js Txn

/-- What is stored is within the limit if the number is not half a cent over it. -/
theorem Numeric12_2.round_le_limit_iff {amount : ℚ} (hpos : 0 < amount) :
    Numeric12_2.round amount ≤ 1000000 ↔ amount < 10000 + 1 / 200 := by
  have hround : Numeric12_2.round amount = ⌊amount * 100 + 1 / 2⌋ := if_pos hpos.le
  have hlt : Numeric12_2.round amount ≤ 1000000 ↔ amount * 100 + 1 / 2 < ((1000001 : ℤ) : ℚ) := by
    rw [hround, ← Int.floor_lt]
    omega
  rw [hlt]
  constructor
  · intro h
    push_cast at h
    linarith
  · intro h
    push_cast
    linarith

variable [Platform]

namespace Law

variable {stock : ServiceStore Inventory.Row} {sagas : Sagas} {owner : String → Option Owner}
  {s : System} {o : String}

/-- Every attempt is that of an order, and decided by what the order was placed with. -/
theorem attempt_decided (h : Law stock sagas owner s) {attempt : Payments.PaymentAttempt}
    (hattempt : ownRow s.paymentsDb (.attempt o) = some attempt) :
    ∃ saga, sagas o = some saga ∧ attempt.amount = saga.row.totalAmount ∧
      attempt.currency = saga.row.currency ∧
      (attempt.status = .succeeded ↔ saga.call.body.totalAmount.le (.finite 10000) = true) := by
  rw [h.payments.view.attempt] at hattempt
  obtain ⟨saga, hsaga, hmap⟩ := Option.bind_eq_some_iff.mp hattempt
  obtain ⟨status, hstatus, rfl⟩ := Option.map_eq_some_iff.mp hmap
  refine ⟨saga, hsaga, rfl, rfl, ?_⟩
  have hdecided := h.payments.view.decided o saga status hsaga hstatus
  show status = .succeeded ↔ saga.approved = true
  rw [hdecided]
  cases saga.approved with
  | true => simp
  | false => simp

end Law

/-- What is stored of a finite amount. -/
theorem Orders.OrderRow.Stores.cents {row : Orders.OrderRow} {call : Orders.CreateOrderCall}
    (h : row.Stores call) {amount : ℚ} (hamount : call.body.totalAmount = .finite amount) :
    ∃ fits, row.totalAmount = .cents (Numeric12_2.round amount) fits := by
  have hstored := h.totalAmount
  rw [hamount] at hstored
  obtain ⟨text, -, hstored⟩ := bind_eq_ok.mp hstored
  obtain ⟨stored, hnumber, hrow⟩ := map_eq_ok.mp hstored
  obtain rfl := Option.some.inj hrow
  simp only [Numeric12_2.ofNumber] at hnumber
  split at hnumber
  · rename_i hfits
    exact ⟨hfits, (Except.ok.inj hnumber).symm⟩
  · simp at hnumber

/--
**The books of a payment.**  Every attempt is that of an order: the two rows have the same
amount and currency, and the attempt has succeeded exactly if the amount that the order was
placed with is within the limit.  The recorded amount says so too, but for an amount that
is over the limit by less than half a cent.
-/
theorem payment_books (stock : ServiceStore Inventory.Row) (hstock : OnlyItems stock)
    {s : System} (hreach : System.Reach stock s) {o : String} {attempt : Payments.PaymentAttempt}
    (hattempt : ownRow s.paymentsDb (.attempt o) = some attempt) :
    ∃ row call amount cents fits, ownRow s.ordersDb (.order o) = some row ∧ s.CreatedFor o call ∧
      call.body.totalAmount = .finite amount ∧
      attempt.amount = row.totalAmount ∧ attempt.currency = row.currency ∧
      row.totalAmount = .cents cents fits ∧ cents = Numeric12_2.round amount ∧
      (attempt.status = .succeeded ↔ amount ≤ 10000) ∧
      ((attempt.status = .succeeded ↔ cents ≤ 1000000) ↔
        ¬ (10000 < amount ∧ amount < 10000 + 1 / 200)) := by
  obtain ⟨sagas, owner, hlaw⟩ := Law.of_reach hstock hreach
  obtain ⟨saga, hsaga, hamount, hcurrency, hstatus⟩ := hlaw.attempt_decided hattempt
  obtain ⟨amount, hfinite⟩ := saga.stored.finite
  obtain ⟨fits, hcents⟩ := saga.stored.cents hfinite
  have hpos : 0 < amount := by
    have hpositive := saga.call.body.totalAmount_pos
    rw [hfinite] at hpositive
    simpa using hpositive
  have hdecided : attempt.status = .succeeded ↔ amount ≤ 10000 := by
    rw [hstatus, hfinite]
    simp
  refine ⟨_, saga.call, amount, _, fits, hlaw.orderRow hsaga, hlaw.desk.placed o saga hsaga,
    hfinite, hamount, hcurrency, hcents, rfl, hdecided, ?_⟩
  rw [hdecided, Numeric12_2.round_le_limit_iff hpos]
  constructor
  · intro hsame ⟨hover, hunder⟩
    have hle := hsame.mpr hunder
    linarith
  · intro hnot
    constructor
    · intro hle
      linarith
    · intro hunder
      by_contra hover
      exact hnot ⟨not_le.mp hover, hunder⟩

end CommercePlatform

/-! ### A sale at the limit, and one just over it -/

namespace CommercePlatform.Sale

open Js Txn

attribute [local instance] platform

theorem booked : ∃ s attempt, System.run acts (System.start stock) = some s ∧
    ownRow s.paymentsDb (.attempt (uuid 1)) = some attempt ∧
    ∃ row call amount cents fits, ownRow s.ordersDb (.order (uuid 1)) = some row ∧
      s.CreatedFor (uuid 1) call ∧ call.body.totalAmount = .finite amount ∧
      attempt.amount = row.totalAmount ∧ attempt.currency = row.currency ∧
      row.totalAmount = .cents cents fits ∧ cents = Numeric12_2.round amount ∧
      (attempt.status = .succeeded ↔ amount ≤ 10000) ∧
      ((attempt.status = .succeeded ↔ cents ≤ 1000000) ↔
        ¬ (10000 < amount ∧ amount < 10000 + 1 / 200)) := by
  obtain ⟨s, hs, -, attempt, hattempt⟩ := exists_sold
  exact ⟨s, attempt, hs, hattempt,
    payment_books stock onlyItems (System.steps_of_run hs) hattempt⟩

end CommercePlatform.Sale

namespace CommercePlatform.HalfCent

open Js Txn Sale

@[reducible] def platform : Platform := .ascii
  [("\x7b\"itemSku\":\"SKU-CHAIR-001\",\"quantity\":2,\"totalAmount\":10000.004,\"currency\":\"USD\"\x7d",
    "c8be7c501237f435a6f2034a45360f5cb73f8633ae3d424c00780f48103f6b44")] (by decide)

attribute [local instance] platform

def call : Orders.CreateOrderCall :=
  { Sale.call with
    body := { Sale.body with
      totalAmount := .finite (10000004 / 1000)
      totalAmount_pos := by decide +kernel } }

/-- The order is placed, its stock is reserved, and its payment is decided. -/
def acts : List SystemAct :=
  [.lookUp 1 call, .insert 1 (uuid 1) (choices 2 3)] ++ transaction .orders 1 6 ++
  publish .orders 1 [uuid 3] ++
  [.deliver .inventory 1 .orders 0 (choices 4 5)] ++ transaction .inventory 1 10 ++
  publish .inventory 1 [uuid 5] ++
  [.deliver .orders 2 .inventory 0 (choices 6 7)] ++ transaction .orders 2 6 ++
  publish .orders 2 [uuid 3, uuid 7] ++
  [.deliver .payments 1 .orders 1 (choices 8 9)] ++ transaction .payments 1 6

/-- The books have 10000.00 for the order and for the attempt, and the attempt has failed. -/
theorem declined_at_limit : ∃ s row attempt fits,
    System.run acts (System.start stock) = some s ∧
    ownRow s.ordersDb (.order (uuid 1)) = some row ∧
    ownRow s.paymentsDb (.attempt (uuid 1)) = some attempt ∧
    row.totalAmount = .cents 1000000 fits ∧ attempt.amount = .cents 1000000 fits ∧
    attempt.status = .failed := by
  have hends : ((System.run acts (System.start stock)).any fun s =>
      (ownRow s.ordersDb (.order (uuid 1))).any fun row =>
        (ownRow s.paymentsDb (.attempt (uuid 1))).any fun attempt =>
          row.totalAmount = .cents 1000000 (by decide) ∧
          attempt.amount = .cents 1000000 (by decide) ∧ attempt.status = .failed) = true := by
    decide +kernel
  obtain ⟨s, hs, hends⟩ := (Option.any_eq_true _ _).mp hends
  obtain ⟨row, hrow, hends⟩ := (Option.any_eq_true _ _).mp hends
  obtain ⟨attempt, hattempt, hends⟩ := (Option.any_eq_true _ _).mp hends
  obtain ⟨htotal, hamount, hstatus⟩ := of_decide_eq_true hends
  exact ⟨s, row, attempt, _, hs, hrow, hattempt, htotal, hamount, hstatus⟩

end CommercePlatform.HalfCent
