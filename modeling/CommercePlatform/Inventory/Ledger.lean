/-
The ledger of the reserves that were granted.

Beside the rows of the inventory a ledger keeps, for each order, what its reserves have
taken since its last release.  The row of an order tells no more than one SKU and one
quantity, so a release can give back what was taken only if that comes to one quantity of
that SKU.
-/
import CommercePlatform.Inventory.Accounts

namespace CommercePlatform.Inventory

open Js Txn

/-! ### What is taken of a SKU -/

/-- The `available_quantity` of a SKU. -/
def availableOf (sku : String) (db : ServiceStore Row) : ℤ :=
  match ownRow db (.item sku) with
  | none => 0
  | some item => item.availableQuantity.val

/-- Its `reserved_quantity`. -/
def reservedOf (sku : String) (db : ServiceStore Row) : ℤ :=
  match ownRow db (.item sku) with
  | none => 0
  | some item => item.reservedQuantity.val

/-- A reserve that was granted. -/
structure Grant where
  orderId : String
  sku : String
  amount : ℤ
  deriving DecidableEq

/-- What a list of grants has taken of a SKU. -/
def taken (grants : List Grant) (sku : String) : ℤ :=
  (grants.map fun grant => if grant.sku = sku then grant.amount else 0).sum

section Taken

variable {grants more : List Grant} {sku : String}

theorem taken_append : taken (grants ++ more) sku = taken grants sku + taken more sku := by
  simp [taken]

theorem taken_singleton (grant : Grant) (sku : String) :
    taken [grant] sku = if sku = grant.sku then grant.amount else 0 := by
  simp [taken, eq_comm]

/-- What is taken is taken by the ones and by the others. -/
theorem taken_filter (p : Grant → Bool) (grants : List Grant) (sku : String) :
    taken (grants.filter p) sku + taken (grants.filter fun grant => !p grant) sku =
      taken grants sku := by
  induction grants with
  | nil => rfl
  | cons grant rest ih =>
      unfold taken at ih ⊢
      by_cases hp : p grant
      · simp only [List.filter_cons_of_pos hp, List.map_cons, List.sum_cons,
          List.filter_cons_of_neg (p := fun grant => !p grant) (a := grant) (by simp [hp])]
        omega
      · simp only [List.filter_cons_of_neg hp, List.map_cons, List.sum_cons,
          List.filter_cons_of_pos (p := fun grant => !p grant) (a := grant) (by simp [hp])]
        omega

theorem taken_nonneg (hpos : ∀ grant ∈ grants, 0 < grant.amount) (sku : String) :
    0 ≤ taken grants sku := by
  refine List.sum_nonneg fun amount hamount => ?_
  obtain ⟨grant, hgrant, rfl⟩ := List.mem_map.mp hamount
  have hone := hpos grant hgrant
  split <;> omega

theorem le_taken (hpos : ∀ grant ∈ grants, 0 < grant.amount) {grant : Grant}
    (hmem : grant ∈ grants) : grant.amount ≤ taken grants grant.sku := by
  obtain ⟨pre, post, rfl⟩ := List.append_of_mem hmem
  have hpre : 0 ≤ taken pre grant.sku :=
    taken_nonneg (fun other hother => hpos other (List.mem_append_left _ hother)) _
  have hpost : 0 ≤ taken post grant.sku :=
    taken_nonneg (fun other hother => hpos other (by simp [hother])) _
  have hsum : taken (pre ++ grant :: post) grant.sku =
      taken pre grant.sku + (grant.amount + taken post grant.sku) := by
    simp [taken]
  omega

/-- Grants of one SKU take their sum of it, and nothing of any other. -/
theorem taken_of_forall {first : String} (h : ∀ grant ∈ grants, grant.sku = first) (sku : String) :
    taken grants sku = if sku = first then (grants.map Grant.amount).sum else 0 := by
  induction grants with
  | nil => simp [taken]
  | cons grant rest ih =>
      have hgrant := h grant (by simp)
      have hrest := ih fun other hother => h other (by simp [hother])
      unfold taken at hrest ⊢
      rw [List.map_cons, List.sum_cons, hrest, hgrant]
      by_cases hsku : sku = first
      · simp [hsku]
      · have hne : ¬ first = sku := fun heq => hsku heq.symm
        simp [hsku, hne]

/-- And grants that take of one SKU only are of that SKU. -/
theorem forall_of_taken (hpos : ∀ grant ∈ grants, 0 < grant.amount) {first : String} {amount : ℤ}
    (h : ∀ sku, taken grants sku = if sku = first then amount else 0) :
    (∀ grant ∈ grants, grant.sku = first) ∧ (grants.map Grant.amount).sum = amount := by
  have hall : ∀ grant ∈ grants, grant.sku = first := by
    intro grant hmem
    by_contra hne
    have hle := le_taken hpos hmem
    rw [h, if_neg hne] at hle
    have hone := hpos grant hmem
    omega
  refine ⟨hall, ?_⟩
  have hsum := taken_of_forall hall first
  rw [h, if_pos rfl, if_pos rfl] at hsum
  exact hsum.symm

end Taken

/-! ### The ledger -/

structure Ledger where
  db : ServiceStore Row
  /-- All reserves that were granted, the oldest first. -/
  granted : List Grant
  /-- Those that were granted since the last release of their order. -/
  standing : List Grant
  /-- What the commands of an order have made of the `reserved_quantity` of a SKU. -/
  holds : String → String → ℤ

namespace Ledger

def opened (db : ServiceStore Row) : Ledger where
  db := db
  granted := []
  standing := []
  holds _ _ := 0

/-- The grants of one order that stand. -/
def standingOf (ledger : Ledger) (orderId : String) : List Grant :=
  ledger.standing.filter fun grant => grant.orderId = orderId

/-- What stands of an order is of one SKU and adds up to one quantity: those of its first grant. -/
def Returnable (ledger : Ledger) (orderId : String) : Prop :=
  ledger.standingOf orderId = [] ∨
    ∃ first, ledger.granted.find? (fun grant => grant.orderId = orderId) = some first ∧
      (∀ grant ∈ ledger.standingOf orderId, grant.sku = first.sku) ∧
      ((ledger.standingOf orderId).map Grant.amount).sum = first.amount

/-- The first grant of an order is returnable if no other one stands. -/
theorem returnable_of_one {ledger : Ledger} {orderId : String} (grant : Grant)
    (h : ledger.granted.find? (fun grant => grant.orderId = orderId) = some grant ∧
      ledger.standingOf orderId = [grant]) : ledger.Returnable orderId := by
  obtain ⟨hfirst, hstanding⟩ := h
  refine Or.inr ⟨grant, hfirst, ?_, ?_⟩
  · rw [hstanding]
    simp
  · rw [hstanding]
    simp

end Ledger

/-! ### The books of a ledger -/

/-- The items and the reservations are the same. -/
def SameStock (db' db : ServiceStore Row) : Prop := ∀ key, ownRow db' key = ownRow db key

namespace SameStock

variable {db db' : ServiceStore Row}

theorem availableOf (h : SameStock db' db) (sku : String) :
    Inventory.availableOf sku db' = Inventory.availableOf sku db := by
  unfold Inventory.availableOf
  rw [h]

theorem reservedOf (h : SameStock db' db) (sku : String) :
    Inventory.reservedOf sku db' = Inventory.reservedOf sku db := by
  unfold Inventory.reservedOf
  rw [h]

variable {sku orderId : String} {old item : Item} {row : Reservation} {amount : ℤ}

/-- What is moved is gone from the one column and added to the other. -/
theorem moved (h : SameStock db' (Accounts.moved db sku orderId item row))
    (hold : ownRow db (.item sku) = some old) (hmove : old.move amount = .ok item) (sku' : String) :
    Inventory.availableOf sku' db' =
        Inventory.availableOf sku' db - (if sku' = sku then amount else 0) ∧
      Inventory.reservedOf sku' db' =
        Inventory.reservedOf sku' db + (if sku' = sku then amount else 0) := by
  obtain ⟨havailable, hreserved⟩ := Item.move_eq_ok hmove
  unfold Inventory.availableOf Inventory.reservedOf
  rw [h, Accounts.item_moved]
  by_cases hsku : sku' = sku
  · subst hsku
    simp only [if_true, hold]
    exact ⟨havailable, hreserved⟩
  · simp [hsku]

end SameStock

/-- What holds of a ledger for as long as releases are of returnable grants. -/
structure Ledger.Books (db₀ : ServiceStore Row) (ledger : Ledger) : Prop where
  positive : ∀ grant ∈ ledger.standing, 0 < grant.amount
  available : ∀ sku, availableOf sku ledger.db + taken ledger.standing sku = availableOf sku db₀
  reserved : ∀ sku, reservedOf sku ledger.db = reservedOf sku db₀ + taken ledger.standing sku
  holds : ∀ orderId sku, ledger.holds orderId sku = taken (ledger.standingOf orderId) sku
  /-- The row of an order is that of its first grant, and reserved as long as a grant stands. -/
  row : ∀ orderId,
    match ledger.granted.find? (fun grant => grant.orderId = orderId) with
    | none => ownRow ledger.db (.reservation orderId) = none ∧ ledger.standingOf orderId = []
    | some first => ∃ row, ownRow ledger.db (.reservation orderId) = some row ∧
        row.sku = first.sku ∧ row.quantity.val = first.amount ∧
        (row.status = .reserved ↔ ledger.standingOf orderId ≠ [])
  item : ∀ orderId row, ownRow ledger.db (.reservation orderId) = some row →
    ownRow ledger.db (.item row.sku) ≠ none

namespace Ledger.Books

variable {db₀ : ServiceStore Row} {ledger : Ledger} {orderId : String}

theorem opened (hempty : ∀ orderId, ownRow db₀ (.reservation orderId) = none) :
    Books db₀ (Ledger.opened db₀) where
  positive := by simp [Ledger.opened]
  available sku := by simp [Ledger.opened, taken]
  reserved sku := by simp [Ledger.opened, taken]
  holds orderId sku := by simp [Ledger.opened, standingOf, taken]
  row orderId := ⟨hempty orderId, rfl⟩
  item orderId row hrow := by
    have hrow' : ownRow db₀ (.reservation orderId) = some row := hrow
    rw [hempty] at hrow'
    simp at hrow'

theorem positive_standingOf (h : Books db₀ ledger) (orderId : String) :
    ∀ grant ∈ ledger.standingOf orderId, 0 < grant.amount :=
  fun grant hgrant => h.positive grant (List.mem_filter.mp hgrant).1

/-- An order has taken no more than all orders together. -/
theorem taken_standingOf_le (h : Books db₀ ledger) (orderId sku : String) :
    taken (ledger.standingOf orderId) sku ≤ taken ledger.standing sku := by
  have hothers := taken_filter (fun grant => grant.orderId = orderId) ledger.standing sku
  have hnonneg : 0 ≤ taken (ledger.standing.filter fun grant => !(grant.orderId = orderId : Bool))
      sku := taken_nonneg (fun grant hgrant => h.positive grant (List.mem_filter.mp hgrant).1) sku
  unfold standingOf
  omega

/-- What a row can tell about the grants of its order. -/
theorem returnable_iff (h : Books db₀ ledger) {row : Reservation}
    (hrow : ownRow ledger.db (.reservation orderId) = some row) (hreserved : row.status = .reserved) :
    ledger.Returnable orderId ↔ ∀ sku, taken (ledger.standingOf orderId) sku =
      if sku = row.sku then row.quantity.val else 0 := by
  have hbook := h.row orderId
  unfold Returnable
  cases hfirst : ledger.granted.find? (fun grant => grant.orderId = orderId) with
  | none =>
      rw [hfirst] at hbook
      obtain ⟨hnone, -⟩ := hbook
      rw [hnone] at hrow
      simp at hrow
  | some first =>
      rw [hfirst] at hbook
      obtain ⟨row', hrow', hsku, hquantity, hstatus⟩ := hbook
      obtain rfl := Option.some.inj (hrow.symm.trans hrow')
      constructor
      · intro hreturnable sku
        rcases hreturnable with hnone | ⟨first', hfirst', hall, hsum⟩
        · exact absurd hnone (hstatus.mp hreserved)
        · obtain rfl := Option.some.inj hfirst'
          rw [taken_of_forall hall sku, hsku, hsum, hquantity]
      · intro htaken
        obtain ⟨hall, hsum⟩ := forall_of_taken (h.positive_standingOf orderId) htaken
        refine Or.inr ⟨first, rfl, fun grant hgrant => (hall grant hgrant).trans hsku, ?_⟩
        rw [hsum, hquantity]

/-- A release of an order with no standing grant moves nothing. -/
theorem not_reserved (h : Books db₀ ledger) (hnone : ledger.standingOf orderId = []) :
    ∀ row, ownRow ledger.db (.reservation orderId) = some row → row.status ≠ .reserved := by
  intro row hrow hreserved
  have hbook := h.row orderId
  cases hfirst : ledger.granted.find? (fun grant => grant.orderId = orderId) with
  | none =>
      rw [hfirst] at hbook
      rw [hbook.1] at hrow
      simp at hrow
  | some first =>
      rw [hfirst] at hbook
      obtain ⟨row', hrow', -, -, hstatus⟩ := hbook
      obtain rfl := Option.some.inj (hrow.symm.trans hrow')
      exact hstatus.mp hreserved hnone

theorem exists_reserved (h : Books db₀ ledger) (hsome : ledger.standingOf orderId ≠ []) :
    ∃ row old, ownRow ledger.db (.reservation orderId) = some row ∧ row.status = .reserved ∧
      ownRow ledger.db (.item row.sku) = some old := by
  have hbook := h.row orderId
  cases hfirst : ledger.granted.find? (fun grant => grant.orderId = orderId) with
  | none =>
      rw [hfirst] at hbook
      exact absurd hbook.2 hsome
  | some first =>
      rw [hfirst] at hbook
      obtain ⟨row, hrow, -, -, hstatus⟩ := hbook
      obtain ⟨old, hold⟩ := Option.ne_none_iff_exists'.mp (h.item orderId row hrow)
      exact ⟨row, old, hrow, hstatus.mpr hsome, hold⟩

/-- The columns have room for what was taken from them. -/
theorem exists_move (h : Books db₀ ledger) {row : Reservation} {old : Item}
    (hold : ownRow ledger.db (.item row.sku) = some old)
    (htaken : taken (ledger.standingOf orderId) row.sku = row.quantity.val) :
    ∃ item, old.move (-row.quantity.val) = .ok item := by
  have hle := h.taken_standingOf_le orderId row.sku
  have hnonneg := taken_nonneg (h.positive_standingOf orderId) row.sku
  have havailable := h.available row.sku
  have hreserved := h.reserved row.sku
  have hbounds : availableOf row.sku db₀ ≤ 2147483647 ∧ -2147483648 ≤ reservedOf row.sku db₀ := by
    unfold availableOf reservedOf
    cases ownRow db₀ (.item row.sku) with
    | none => simp
    | some item => exact ⟨item.availableQuantity.upper, item.reservedQuantity.lower⟩
  unfold availableOf at havailable hbounds
  unfold reservedOf at hreserved hbounds
  rw [hold] at havailable hreserved
  simp only at havailable hreserved
  have hlower := old.availableQuantity.lower
  have hupper := old.reservedQuantity.upper
  exact Item.exists_move (by omega) (by omega) (by omega) (by omega)

/-! ### Writing in the ledger -/

variable {db' : ServiceStore Row} {holds : String → String → ℤ}

/-- Nothing has moved. -/
theorem of_same (h : Books db₀ ledger) (hsame : SameStock db' ledger.db)
    (hholds : ∀ orderId sku, holds orderId sku = ledger.holds orderId sku) :
    Books db₀ { ledger with db := db', holds := holds } where
  positive := h.positive
  available sku := by
    rw [hsame.availableOf]
    exact h.available sku
  reserved sku := by
    rw [hsame.reservedOf]
    exact h.reserved sku
  holds orderId sku := (hholds orderId sku).trans (h.holds orderId sku)
  row orderId := by
    show match ledger.granted.find? (fun grant => grant.orderId = orderId) with
      | none => ownRow db' (.reservation orderId) = none ∧ ledger.standingOf orderId = []
      | some first => ∃ row, ownRow db' (.reservation orderId) = some row ∧
          row.sku = first.sku ∧ row.quantity.val = first.amount ∧
          (row.status = .reserved ↔ ledger.standingOf orderId ≠ [])
    rw [hsame]
    exact h.row orderId
  item orderId row hrow := by
    rw [hsame] at hrow ⊢
    exact h.item orderId row hrow

/-- A reserve is granted.  Its row is inserted, or the one that is there is reserved again. -/
theorem grant (h : Books db₀ ledger) {sku : String} {amount : Int4} {old item : Item}
    (hpositive : 0 < amount.val) (hold : ownRow ledger.db (.item sku) = some old)
    (hmove : old.move amount.val = .ok item)
    (hsame : SameStock db' (Accounts.moved ledger.db sku orderId item
      (match ownRow ledger.db (.reservation orderId) with
        | none => { sku := sku, quantity := amount, status := .reserved }
        | some held => { held with status := .reserved })))
    (hholds : ∀ orderId' sku', holds orderId' sku' = ledger.holds orderId' sku' +
      if orderId' = orderId ∧ sku' = sku then amount.val else 0) :
    Books db₀
      { db := db'
        granted := ledger.granted ++ [{ orderId := orderId, sku := sku, amount := amount.val }]
        standing := ledger.standing ++ [{ orderId := orderId, sku := sku, amount := amount.val }]
        holds := holds } where
  positive granted hgranted := by
    rcases List.mem_append.mp hgranted with hbefore | hnow
    · exact h.positive granted hbefore
    · obtain rfl := List.mem_singleton.mp hnow
      exact hpositive
  available sku' := by
    have hmoved := (hsame.moved hold hmove sku').1
    have hbefore := h.available sku'
    simp only [taken_append, taken_singleton]
    omega
  reserved sku' := by
    have hmoved := (hsame.moved hold hmove sku').2
    have hbefore := h.reserved sku'
    simp only [taken_append, taken_singleton]
    omega
  holds orderId' sku' := by
    show holds orderId' sku' = _
    rw [hholds, h.holds]
    unfold standingOf
    rw [List.filter_append, taken_append]
    by_cases horder : orderId' = orderId
    · simp [horder, taken_singleton]
    · have hne : ¬ orderId = orderId' := fun heq => horder heq.symm
      simp [horder, hne, taken]
  row orderId' := by
    have hbook := h.row orderId'
    unfold standingOf at hbook ⊢
    simp only [List.find?_append, List.filter_append]
    rw [hsame, Accounts.reservation_moved]
    by_cases horder : orderId' = orderId
    · subst horder
      cases hfirst : ledger.granted.find? (fun grant => grant.orderId = orderId') with
      | none =>
          rw [hfirst] at hbook
          simp [hbook.1]
      | some first =>
          rw [hfirst] at hbook
          obtain ⟨row, hrow, hsku, hquantity, -⟩ := hbook
          simp [hrow, hsku, hquantity]
    · have hne : ¬ orderId = orderId' := fun heq => horder heq.symm
      simpa [horder, hne] using hbook
  item orderId' row hrow := by
    rw [hsame, Accounts.reservation_moved] at hrow
    rw [hsame, Accounts.item_moved]
    split
    · simp
    · rename_i hne
      split at hrow
      · cases hheld : ownRow ledger.db (.reservation orderId) with
        | none =>
            rw [hheld] at hrow
            obtain rfl := Option.some.inj hrow
            exact absurd rfl hne
        | some held =>
            rw [hheld] at hrow
            obtain rfl := Option.some.inj hrow
            exact h.item orderId held hheld
      · exact h.item orderId' row hrow

/-- What another order holds, it holds without the grants of this one. -/
theorem filter_of_other {orderId' : String} (hother : orderId' ≠ orderId) (grants : List Grant) :
    grants.filter (fun grant =>
        decide (grant.orderId = orderId') && decide (grant.orderId ≠ orderId)) =
      grants.filter fun grant => grant.orderId = orderId' := by
  refine List.filter_congr fun grant _ => ?_
  by_cases hgrant : grant.orderId = orderId'
  · simp [hgrant, hother]
  · simp [hgrant]

/-- An order is released of all its grants. -/
theorem release (h : Books db₀ ledger)
    (hexact : ∀ sku, availableOf sku db' =
        availableOf sku ledger.db + taken (ledger.standingOf orderId) sku ∧
      reservedOf sku db' = reservedOf sku ledger.db - taken (ledger.standingOf orderId) sku)
    (hholds : ∀ orderId' sku, holds orderId' sku =
      if orderId' = orderId then 0 else ledger.holds orderId' sku)
    (hother : ∀ orderId', orderId' ≠ orderId →
      ownRow db' (.reservation orderId') = ownRow ledger.db (.reservation orderId'))
    (hrow : match ownRow ledger.db (.reservation orderId) with
      | none => ownRow db' (.reservation orderId) = none
      | some row => ownRow db' (.reservation orderId) = some { row with status := .released })
    (hitem : ∀ sku, ownRow db' (.item sku) = none ↔ ownRow ledger.db (.item sku) = none) :
    Books db₀
      { db := db'
        granted := ledger.granted
        standing := ledger.standing.filter fun grant => grant.orderId ≠ orderId
        holds := holds } where
  positive granted hgranted := h.positive granted (List.mem_filter.mp hgranted).1
  available sku := by
    have hbefore := h.available sku
    have hsplit := taken_filter (fun grant => grant.orderId = orderId) ledger.standing sku
    have hnow := (hexact sku).1
    unfold standingOf at hnow
    simp only [decide_not]
    omega
  reserved sku := by
    have hbefore := h.reserved sku
    have hsplit := taken_filter (fun grant => grant.orderId = orderId) ledger.standing sku
    have hnow := (hexact sku).2
    unfold standingOf at hnow
    simp only [decide_not]
    omega
  holds orderId' sku := by
    show holds orderId' sku = _
    rw [hholds]
    unfold standingOf
    rw [List.filter_filter]
    by_cases horder : orderId' = orderId
    · subst horder
      simp [taken]
    · rw [if_neg horder, h.holds, filter_of_other horder]
      rfl
  row orderId' := by
    have hbook := h.row orderId'
    unfold standingOf at hbook ⊢
    simp only [List.filter_filter]
    by_cases horder : orderId' = orderId
    · subst horder
      cases hfirst : ledger.granted.find? (fun grant => grant.orderId = orderId') with
      | none =>
          rw [hfirst] at hbook
          rw [hbook.1] at hrow
          simp [hrow]
      | some first =>
          rw [hfirst] at hbook
          obtain ⟨row, hrow', hsku, hquantity, -⟩ := hbook
          rw [hrow'] at hrow
          refine ⟨_, hrow, hsku, hquantity, ?_⟩
          simp
    · rw [hother orderId' horder]
      rw [filter_of_other horder]
      exact hbook
  item orderId' row hrow' := by
    have hkept : ∃ old, ownRow ledger.db (.reservation orderId') = some old ∧ old.sku = row.sku := by
      by_cases horder : orderId' = orderId
      · subst horder
        cases hbefore : ownRow ledger.db (.reservation orderId') with
        | none =>
            rw [hbefore, hrow'] at hrow
            simp at hrow
        | some old =>
            rw [hbefore, hrow'] at hrow
            obtain rfl := Option.some.inj hrow
            exact ⟨old, rfl, rfl⟩
      · rw [hother orderId' horder] at hrow'
        exact ⟨row, hrow', rfl⟩
    obtain ⟨old, hold, hsku⟩ := hkept
    have hpresent := h.item orderId' old hold
    rw [hsku] at hpresent
    exact fun hnone => hpresent ((hitem _).mp hnone)

end Ledger.Books

end CommercePlatform.Inventory
