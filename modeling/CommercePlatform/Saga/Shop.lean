/-
The shop that the services are together.

Seen from outside there are no services, messages or transactions: there is stock, and
there are orders, each somewhere on its way.  One thing happens at a time.  An order is
placed, or one order goes on, and the two phases that move stock move it in the same
instant.
-/
import Mathlib.Logic.Relation
import CommercePlatform.Saga.Phase

namespace CommercePlatform

/-! ### The phases that the stock decides -/

namespace Phase

/-- The stock was refused. -/
def Refused (p : Phase) : Prop := p = rejected ∨ p = outOfStock

/-- The stock was set aside. -/
def Granted (p : Phase) : Prop := p.reservation ≠ none

instance : DecidablePred Refused := fun p => inferInstanceAs (Decidable (p = _ ∨ p = _))

instance : DecidablePred Granted := fun p => inferInstanceAs (Decidable (p.reservation ≠ none))

namespace Advance

variable {p p' : Phase} {kind : EventKind} {out : Option EventKind}

theorem refuses (h : Advance p kind out p') (hbefore : ¬ p.Refused) (hafter : p'.Refused) :
    p = requested ∧ p' = rejected := by
  cases h <;> first | exact ⟨rfl, rfl⟩ | exact absurd hafter (by decide) |
    exact absurd (by decide) hbefore

theorem grants (h : Advance p kind out p') (hbefore : ¬ p.Granted) (hafter : p'.Granted) :
    p = requested ∧ p' = reserved := by
  cases h <;> first | exact ⟨rfl, rfl⟩ | exact absurd hafter (by decide) |
    exact absurd (by decide) hbefore

/-- Only the inventory service enters phases that move stock. -/
theorem not_moving (h : Advance p kind out p') (hkind : kind.consumer ≠ .inventory) :
    p' ≠ .reserved ∧ p' ≠ .released ∧ p' ≠ .rejected := by
  cases h <;> first | decide | exact absurd rfl hkind

theorem not_deciding (h : Advance p kind out p') (hkind : kind.consumer ≠ .payments) :
    p' ≠ .paid ∧ p' ≠ .declined := by
  cases h <;> first | decide | exact absurd rfl hkind

end Advance

end Phase

/-! ### The shop -/

/-- The stock of one SKU. -/
@[ext]
structure Level where
  available : ℤ
  reserved : ℤ
  deriving DecidableEq

namespace Level

/-- A quantity is set aside, or given back if it is negative. -/
def take (level : Level) (quantity : ℤ) : Level :=
  { available := level.available - quantity, reserved := level.reserved + quantity }

theorem take_zero (level : Level) : level.take 0 = level := by
  ext
  · exact sub_zero level.available
  · exact add_zero level.reserved

end Level

/-- An order of the shop, and how far it has come. -/
structure ShopOrder (κ : Type) where
  sku : κ
  quantity : ℤ
  /-- Its payment would be authorized. -/
  approved : Bool
  phase : Phase

/-- The stock by SKU, and the orders by identifier. -/
structure Shop (κ ι : Type) where
  levels : κ → Option Level
  orders : ι → Option (ShopOrder κ)

namespace Shop

variable {κ ι : Type}

/-- What an order takes from the stock on entering a phase. -/
def taken (quantity : ℤ) : Phase → ℤ
  | .reserved => quantity
  | .released => -quantity
  | _ => 0

/-- The order may enter the phase. -/
def May (levels : κ → Option Level) (order : ShopOrder κ) : Phase → Prop
  | .reserved => ∃ level, levels order.sku = some level ∧ order.quantity ≤ level.available
  | .rejected => ∀ level, levels order.sku = some level → level.available < order.quantity
  | .paid => order.approved = true
  | .declined => order.approved = false
  | _ => True

variable [DecidableEq κ] [DecidableEq ι]

/-- The stock after a quantity of one SKU has been taken from it. -/
def restocked (levels : κ → Option Level) (sku : κ) (quantity : ℤ) : κ → Option Level :=
  Function.update levels sku ((levels sku).map fun level => level.take quantity)

omit [DecidableEq ι] in
theorem restocked_zero (levels : κ → Option Level) (sku : κ) : restocked levels sku 0 = levels := by
  funext sku'
  unfold restocked
  by_cases hsku : sku' = sku
  · subst hsku
    rw [Function.update_self]
    cases levels sku' with
    | none => rfl
    | some level => exact congrArg some level.take_zero
  · exact Function.update_of_ne hsku _ _

/-- What can happen in the shop. -/
inductive Step (shop : Shop κ ι) : Shop κ ι → Prop
  | place {o : ι} {order : ShopOrder κ} (hnew : shop.orders o = none)
      (hphase : order.phase = .requested) (hquantity : 0 < order.quantity) :
      Step shop { shop with orders := Function.update shop.orders o (some order) }
  | go {o : ι} {order : ShopOrder κ} {kind : EventKind} {out : Option EventKind} {p' : Phase}
      (horder : shop.orders o = some order) (hadv : Phase.Advance order.phase kind out p')
      (hmay : May shop.levels order p') :
      Step shop
        { levels := restocked shop.levels order.sku (taken order.quantity p')
          orders := Function.update shop.orders o (some { order with phase := p' }) }

/-- A shop before its first order. -/
def opening (levels : κ → Option Level) : Shop κ ι := { levels := levels, orders := fun _ => none }

omit [DecidableEq ι] in
/-- Only reserving and releasing move stock. -/
theorem restocked_taken {levels : κ → Option Level} {sku : κ} {quantity : ℤ} {p : Phase}
    (hreserved : p ≠ .reserved) (hreleased : p ≠ .released) :
    restocked levels sku (taken quantity p) = levels := by
  have hzero : taken quantity p = 0 := by
    cases p <;> first | rfl | exact absurd rfl hreserved | exact absurd rfl hreleased
  rw [hzero, restocked_zero]

/-! ### What one step does to one order -/

variable {shop shop' : Shop κ ι} {o : ι}

/-- An order stays, with what was ordered. -/
theorem Step.keeps (h : Step shop shop') {order : ShopOrder κ} (horder : shop.orders o = some order) :
    ∃ order', shop'.orders o = some order' ∧ order'.sku = order.sku ∧
      order'.quantity = order.quantity := by
  cases h with
  | @place o' order' hnew hphase hquantity =>
      have ho : o ≠ o' := by
        intro heq
        rw [heq, hnew] at horder
        simp at horder
      exact ⟨order, (Function.update_of_ne ho _ _).trans horder, rfl, rfl⟩
  | @go o' before kind out p' hbefore hadv hmay =>
      by_cases ho : o = o'
      · subst ho
        obtain rfl := Option.some.inj (hbefore.symm.trans horder)
        exact ⟨_, Function.update_self _ _ _, rfl, rfl⟩
      · exact ⟨order, (Function.update_of_ne ho _ _).trans horder, rfl, rfl⟩

theorem keeps_run (h : Relation.ReflTransGen Step shop shop') {order : ShopOrder κ}
    (horder : shop.orders o = some order) :
    ∃ order', shop'.orders o = some order' ∧ order'.sku = order.sku ∧
      order'.quantity = order.quantity := by
  induction h with
  | refl => exact ⟨order, horder, rfl, rfl⟩
  | tail _ hstep ih =>
      obtain ⟨order₁, horder₁, hsku₁, hquantity₁⟩ := ih
      obtain ⟨order₂, horder₂, hsku₂, hquantity₂⟩ := hstep.keeps horder₁
      exact ⟨order₂, horder₂, hsku₂.trans hsku₁, hquantity₂.trans hquantity₁⟩

/-- The order is in one of the phases. -/
def In (phases : Phase → Prop) (shop : Shop κ ι) (o : ι) : Prop :=
  ∃ order, shop.orders o = some order ∧ phases order.phase

/-- An order that gets into phases it does not start in does so by an event, and as it may. -/
theorem Step.entering (h : Step shop shop') {phases : Phase → Prop} (hfirst : ¬ phases .requested)
    (hbefore : ¬ In phases shop o) (hafter : In phases shop' o) :
    ∃ order kind out p', shop.orders o = some order ∧ ¬ phases order.phase ∧
      Phase.Advance order.phase kind out p' ∧ phases p' ∧ May shop.levels order p' := by
  obtain ⟨after, horder, hin⟩ := hafter
  cases h with
  | @place o' order' hnew hphase hquantity =>
      by_cases ho : o = o'
      · subst ho
        simp only [Function.update_self, Option.some.injEq] at horder
        exact absurd (hphase ▸ horder ▸ hin) hfirst
      · exact absurd ⟨after, (Function.update_of_ne ho _ _).symm.trans horder, hin⟩ hbefore
  | @go o' order kind out p' hold hadv hmay =>
      by_cases ho : o = o'
      · subst ho
        simp only [Function.update_self, Option.some.injEq] at horder
        subst horder
        exact ⟨order, kind, out, p', hold, fun hin' => hbefore ⟨order, hold, hin'⟩, hadv, hin, hmay⟩
      · exact absurd ⟨after, (Function.update_of_ne ho _ _).symm.trans horder, hin⟩ hbefore

end Shop

end CommercePlatform
