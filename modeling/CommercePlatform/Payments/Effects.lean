/-
What a payment command does when it runs alone.
-/
import CommercePlatform.Service.Statements
import CommercePlatform.Payments.Transactions

namespace CommercePlatform.Payments

open Js Txn

variable [Platform] {db db' : ServiceStore Row}

section Rows

variable {orderId orderId' : String} {row : PaymentAttempt}

omit [Platform]

theorem attempt_insert_attempt :
    ownRow (db.insert (ServiceKey.own (Key.attempt orderId)) row) (.attempt orderId') =
      if orderId' = orderId then some row else ownRow db (.attempt orderId') := by
  by_cases horder : orderId' = orderId
  · subst horder
    simp [ownRow]
  · rw [if_neg horder]
    exact Finmap.lookup_insert_of_ne _ (by simpa using horder)

end Rows

/-- A command that asks for a payment, with nothing missing. -/
structure PayCommand (payload : Json) (orderId currency : String) (amount : Number)
    (stored : Numeric12_2) : Prop where
  uuid : uuidParam (some (.str orderId)) = .ok (some orderId)
  text : textParam (some (.str currency)) = .ok (some currency)
  fits : numericParam (some (.num amount)) = .ok (some stored)
  orderId : payload.get "orderId" = .ok (some (.str orderId))
  amount : payload.get "amount" = .ok (some (.num amount))
  currency : payload.get "currency" = .ok (some (.str currency))

/-- The first command for an order is decided by its amount, and recorded. -/
theorem run_decidePayment_eq_ok {payload : Json} {orderId currency : String} {amount : Number}
    {stored : Numeric12_2} {choices : Choices}
    (h : PayCommand payload orderId currency amount stored)
    (hnone : ownRow db (.attempt orderId) = none) :
    (decidePayment payload choices).run db = .ok ((), db') ↔
      ∃ id out, outboxRow choices topics.payment
          (paymentResult (amount.le (.finite 10000)) (some (.str orderId)) choices.eventId) =
            .ok (id, out) ∧
        outboxAt db id = none ∧
        db' = (db.insert (ServiceKey.own (Key.attempt orderId))
          ({ amount := stored, currency := currency,
             status := if amount.le (.finite 10000) then .succeeded else .failed } :
            PaymentAttempt)).insert (ServiceKey.outbox id) out := by
  have hrow : ∀ status, attemptRow (some (.str orderId)) (some (.num amount))
      (some (.str currency)) status =
        .ok (orderId, { amount := stored, currency := currency, status := status }) := by
    intro status
    simp [attemptRow, h.uuid, h.fits, h.text, bind, Except.bind, pure, Except.pure]
  unfold decidePayment
  simp only [h.amount, h.orderId, h.currency, Tx.ofExcept_ok, Tx.bind_eq, Tx.pure_bind,
    toNumber_num, hrow, Tx.run_bind_eq_ok]
  constructor
  · intro ⟨_, db₁, hupsert, hout⟩
    rcases run_upsertInto_eq_ok.mp hupsert with ⟨-, hinsert⟩ | ⟨old, hold, -⟩
    · rw [Tx.run_pure] at hinsert
      obtain ⟨-, rfl⟩ := Prod.mk.inj (Except.ok.inj hinsert)
      obtain ⟨id, out, hrow, hfree, hdb⟩ := run_insertOutbox_eq_ok.mp hout
      exact ⟨id, out, hrow, by simpa using hfree, hdb⟩
    · rw [hnone] at hold
      simp at hold
  · intro ⟨id, out, hrow, hfree, hdb⟩
    refine ⟨(), _, run_upsertInto_eq_ok.mpr (Or.inl ⟨hnone, rfl⟩), ?_⟩
    exact run_insertOutbox_eq_ok.mpr ⟨id, out, hrow, by simpa using hfree, hdb⟩

end CommercePlatform.Payments
