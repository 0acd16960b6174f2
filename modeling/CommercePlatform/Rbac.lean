/-
Roles, and who may hand them out.

A subject holds a permission through some role it is a member of.  An administrator is one
who holds a certain permission, the gate; it may make any subject a member of any role.  So
what a subject gains in one change is what the role permits, and where no one holds the gate
there are no changes at all.
-/
import Mathlib.Logic.Relation

namespace Rbac

variable {Subject Role Permission : Type*}

/-- Who is in which role, and what the roles permit. -/
@[ext]
structure Policy (Subject Role Permission : Type*) where
  member : Subject → Role → Prop
  permits : Role → Permission → Prop

namespace Policy

/-- The subject holds the permission through one of its roles. -/
def Held (policy : Policy Subject Role Permission) (subject : Subject) (permission : Permission) :
    Prop :=
  ∃ role, policy.member subject role ∧ policy.permits role permission

/-- The policy with one member more. -/
def assign (policy : Policy Subject Role Permission) (subject : Subject) (role : Role) :
    Policy Subject Role Permission where
  member subject' role' := policy.member subject' role' ∨ subject' = subject ∧ role' = role
  permits := policy.permits

/-- What one request of a caller makes of a policy. -/
inductive Change (gate : Permission) (caller : Subject) (policy : Policy Subject Role Permission) :
    Policy Subject Role Permission → Prop where
  | refused : Change gate caller policy policy
  | assigned {subject : Subject} {role : Role} (hgate : policy.Held caller gate) :
      Change gate caller policy (policy.assign subject role)

variable {policy policy' : Policy Subject Role Permission} {subject caller : Subject} {role : Role}
  {permission gate : Permission}

/-- A new member holds what the role permits, and no one else gains anything. -/
theorem held_assign {subject' : Subject} :
    (policy.assign subject role).Held subject' permission ↔
      policy.Held subject' permission ∨ subject' = subject ∧ policy.permits role permission := by
  constructor
  · rintro ⟨role', hmember | ⟨rfl, rfl⟩, hpermits⟩
    · exact Or.inl ⟨role', hmember, hpermits⟩
    · exact Or.inr ⟨rfl, hpermits⟩
  · rintro (⟨role', hmember, hpermits⟩ | ⟨rfl, hpermits⟩)
    · exact ⟨role', Or.inl hmember, hpermits⟩
    · exact ⟨role, Or.inr ⟨rfl, rfl⟩, hpermits⟩

/-- Nothing is taken away. -/
theorem Change.held (h : Change gate caller policy policy') (hheld : policy.Held subject permission) :
    policy'.Held subject permission := by
  cases h with
  | refused => exact hheld
  | assigned hgate => exact held_assign.mpr (Or.inl hheld)

/-- Who does not hold the gate changes nothing. -/
theorem Change.eq_of_not_held (h : Change gate caller policy policy')
    (hgate : ¬ policy.Held caller gate) : policy' = policy := by
  cases h with
  | refused => rfl
  | assigned hheld => exact absurd hheld hgate

/-- **Where no one holds the gate, no changes are made, however many are asked for.** -/
theorem eq_of_no_administrator
    (h : Relation.ReflTransGen (fun policy policy' => ∃ caller, Change gate caller policy policy')
      policy policy')
    (hnone : ∀ subject, ¬ policy.Held subject gate) : policy' = policy := by
  induction h with
  | refl => rfl
  | tail _ hchange ih =>
      obtain ⟨caller, hchange⟩ := hchange
      subst ih
      exact hchange.eq_of_not_held (hnone caller)

end Policy

end Rbac
