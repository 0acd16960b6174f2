/-
Transactions as programs over a keyed store.

A store holds the rows of all tables of one schema: every row has a key, and the
type of a row depends on its key.  A transaction body is a tree of primitive
accesses, one constructor each for a plain read, a row lock, the claim an insert
makes on a unique key, and the write of a row version; whatever the code computes
between two accesses is the continuation of the first.

This file gives the tree, its monad, and what it does when nothing else is
running.  `Txn/Server.lean` runs many of them at once.
-/
import Mathlib.Data.Finmap

namespace Txn

/-- The rows of a schema, by key. -/
abbrev Store {κ : Type} (ν : κ → Type) := Finmap ν

/-- The body of a transaction. -/
inductive Tx {κ : Type} (ν : κ → Type) (ε α : Type) : Type where
  /-- The body is done. -/
  | pure (a : α)
  /-- The body, or the statement it runs, raises an error. -/
  | throw (e : ε)
  /-- A plain `SELECT`: no lock, the last committed row or the transaction's own. -/
  | read (k : κ) (next : Option (ν k) → Tx ν ε α)
  /-- A row lock, as `FOR UPDATE` and `UPDATE` take it.  A row that is not there is not locked. -/
  | lock (k : κ) (next : Option (ν k) → Tx ν ε α)
  /-- The claim of an insert on a unique key: is a row there already?  If not, the key is held. -/
  | claim (k : κ) (next : Bool → Tx ν ε α)
  /-- The write of a row version. -/
  | put (k : κ) (row : ν k) (next : Tx ν ε α)

namespace Tx

variable {κ : Type} {ν : κ → Type} {ε α β : Type}

/-- Sequencing: the second body runs where the first is done. -/
def bind : Tx ν ε α → (α → Tx ν ε β) → Tx ν ε β
  | .pure a, f => f a
  | .throw e, _ => .throw e
  | .read k next, f => .read k fun r => (next r).bind f
  | .lock k next, f => .lock k fun r => (next r).bind f
  | .claim k next, f => .claim k fun b => (next b).bind f
  | .put k row next, f => .put k row (next.bind f)

instance : Monad (Tx ν ε) where
  pure := .pure
  bind := .bind

@[simp] theorem pure_eq (a : α) : (Pure.pure a : Tx ν ε α) = .pure a := rfl

@[simp] theorem bind_eq (p : Tx ν ε α) (f : α → Tx ν ε β) : p >>= f = p.bind f := rfl

@[simp] theorem pure_bind (a : α) (f : α → Tx ν ε β) : (Tx.pure a).bind f = f a := rfl

@[simp] theorem throw_bind (e : ε) (f : α → Tx ν ε β) : (Tx.throw e).bind f = .throw e := rfl

@[simp] theorem read_bind (k : κ) (next : Option (ν k) → Tx ν ε α) (f : α → Tx ν ε β) :
    (Tx.read k next).bind f = .read k fun r => (next r).bind f := rfl

@[simp] theorem lock_bind (k : κ) (next : Option (ν k) → Tx ν ε α) (f : α → Tx ν ε β) :
    (Tx.lock k next).bind f = .lock k fun r => (next r).bind f := rfl

@[simp] theorem claim_bind (k : κ) (next : Bool → Tx ν ε α) (f : α → Tx ν ε β) :
    (Tx.claim k next).bind f = .claim k fun b => (next b).bind f := rfl

@[simp] theorem put_bind (k : κ) (row : ν k) (next : Tx ν ε α) (f : α → Tx ν ε β) :
    (Tx.put k row next).bind f = .put k row (next.bind f) := rfl

theorem bind_assoc {γ : Type} (p : Tx ν ε α) (f : α → Tx ν ε β) (h : β → Tx ν ε γ) :
    (p.bind f).bind h = p.bind fun a => (f a).bind h := by
  induction p with
  | pure a => rfl
  | throw e => rfl
  | read k next ih => simp only [read_bind, ih]
  | lock k next ih => simp only [lock_bind, ih]
  | claim k next ih => simp only [claim_bind, ih]
  | put k row next ih => simp only [put_bind, ih]

/-! ### The primitive accesses as bodies of their own -/

/-- A computation that touches no row. -/
def ofExcept : Except ε α → Tx ν ε α
  | .ok a => .pure a
  | .error e => .throw e

@[simp] theorem ofExcept_ok (a : α) : (ofExcept (.ok a) : Tx ν ε α) = .pure a := rfl

@[simp] theorem ofExcept_error (e : ε) : (ofExcept (.error e) : Tx ν ε α) = .throw e := rfl

/-- `SELECT` of one row. -/
def readRow (k : κ) : Tx ν ε (Option (ν k)) := .read k .pure

/-- `SELECT … FOR UPDATE` of one row. -/
def lockRow (k : κ) : Tx ν ε (Option (ν k)) := .lock k .pure

/-- Does a unique key already have a row? -/
def claimKey (k : κ) : Tx ν ε Bool := .claim k .pure

/-- Write one row. -/
def putRow (k : κ) (row : ν k) : Tx ν ε Unit := .put k row (.pure ())

@[simp] theorem readRow_bind (k : κ) (f : Option (ν k) → Tx ν ε β) :
    (readRow k).bind f = .read k f := rfl

@[simp] theorem lockRow_bind (k : κ) (f : Option (ν k) → Tx ν ε β) :
    (lockRow k).bind f = .lock k f := rfl

@[simp] theorem claimKey_bind (k : κ) (f : Bool → Tx ν ε β) :
    (claimKey k).bind f = .claim k f := rfl

@[simp] theorem putRow_bind (k : κ) (row : ν k) (f : Unit → Tx ν ε β) :
    (putRow k row).bind f = .put k row (f ()) := rfl

/-! ### Statements -/

/-- `INSERT` under a unique key: raises if the key has a row. -/
def insertRow (k : κ) (row : ν k) (violation : ε) : Tx ν ε Unit := do
  if ← claimKey k then .throw violation else putRow k row

/-- `UPDATE` of the row under a key, which is no error if there is none. -/
def updateRow (k : κ) (set : ν k → Except ε (ν k)) : Tx ν ε Unit := do
  match ← lockRow k with
  | none => .pure ()
  | some row => putRow k (← ofExcept (set row))

/-- `INSERT … ON CONFLICT DO UPDATE`; `check` is what an inserted row has to pass. -/
def upsertRow (k : κ) (row : ν k) (set : ν k → ν k) (check : Tx ν ε Unit := .pure ()) :
    Tx ν ε Unit := do
  if ← claimKey k then updateRow k fun old => .ok (set old)
  else
    putRow k row
    check

/-! ### A body that runs alone -/

variable [DecidableEq κ]

/-- What a body returns and the store it leaves, when nothing else runs. -/
def run : Tx ν ε α → Store ν → Except ε (α × Store ν)
  | .pure a, db => .ok (a, db)
  | .throw e, _ => .error e
  | .read k next, db => (next (db.lookup k)).run db
  | .lock k next, db => (next (db.lookup k)).run db
  | .claim k next, db => (next (db.lookup k).isSome).run db
  | .put k row next, db => next.run (db.insert k row)

@[simp] theorem run_pure (a : α) (db : Store ν) : (Tx.pure a : Tx ν ε α).run db = .ok (a, db) := rfl

@[simp] theorem run_throw (e : ε) (db : Store ν) : (Tx.throw e : Tx ν ε α).run db = .error e := rfl

@[simp] theorem run_read (k : κ) (next : Option (ν k) → Tx ν ε α) (db : Store ν) :
    (Tx.read k next).run db = (next (db.lookup k)).run db := rfl

@[simp] theorem run_lock (k : κ) (next : Option (ν k) → Tx ν ε α) (db : Store ν) :
    (Tx.lock k next).run db = (next (db.lookup k)).run db := rfl

@[simp] theorem run_claim (k : κ) (next : Bool → Tx ν ε α) (db : Store ν) :
    (Tx.claim k next).run db = (next (db.lookup k).isSome).run db := rfl

@[simp] theorem run_put (k : κ) (row : ν k) (next : Tx ν ε α) (db : Store ν) :
    (Tx.put k row next).run db = next.run (db.insert k row) := rfl

/-- Two bodies in sequence: the second runs on what the first left, if it did not raise. -/
theorem run_bind (p : Tx ν ε α) (f : α → Tx ν ε β) (db : Store ν) :
    (p.bind f).run db = (p.run db).bind fun r => (f r.1).run r.2 := by
  induction p generalizing db with
  | pure a => rfl
  | throw e => rfl
  | read k next ih => exact ih _ db
  | lock k next ih => exact ih _ db
  | claim k next ih => exact ih _ db
  | put k row next ih => exact ih _

theorem run_bind_eq_ok {p : Tx ν ε α} {f : α → Tx ν ε β} {db : Store ν} {r : β × Store ν} :
    (p.bind f).run db = .ok r ↔ ∃ a db₁, p.run db = .ok (a, db₁) ∧ (f a).run db₁ = .ok r := by
  rw [run_bind]
  cases hp : p.run db with
  | error e => simp [Except.bind]
  | ok r₁ =>
      obtain ⟨a, db₁⟩ := r₁
      simp [Except.bind]

theorem run_ofExcept_bind_eq_ok {x : Except ε α} {f : α → Tx ν ε β} {db : Store ν}
    {r : β × Store ν} :
    ((ofExcept x).bind f).run db = .ok r ↔ ∃ a, x = .ok a ∧ (f a).run db = .ok r := by
  cases x with
  | error e => simp
  | ok a => simp

theorem run_insertRow_eq_ok {k : κ} {row : ν k} {e : ε} {db db' : Store ν} :
    (insertRow k row e).run db = .ok ((), db') ↔ k ∉ db ∧ db' = db.insert k row := by
  unfold insertRow
  by_cases hk : k ∈ db
  · simp [Finmap.lookup_isSome.mpr hk, hk]
  · simp [Finmap.lookup_eq_none.mpr hk, hk, putRow, eq_comm]

theorem run_updateRow_eq_ok {k : κ} {set : ν k → Except ε (ν k)} {db db' : Store ν} :
    (updateRow k set).run db = .ok ((), db') ↔
      (db.lookup k = none ∧ db' = db) ∨
        ∃ row row', db.lookup k = some row ∧ set row = .ok row' ∧ db' = db.insert k row' := by
  unfold updateRow
  cases hrow : db.lookup k with
  | none => simp [hrow, eq_comm]
  | some row =>
      cases hset : set row with
      | error e => simp [hrow, hset]
      | ok row' => simp [hrow, hset, putRow, eq_comm]

/-- No access removes a row. -/
theorem run_mono {p : Tx ν ε α} {db db' : Store ν} {a : α} (h : p.run db = .ok (a, db'))
    {k : κ} (hk : k ∈ db) : k ∈ db' := by
  induction p generalizing db with
  | pure b =>
      simp only [run_pure, Except.ok.injEq, Prod.mk.injEq] at h
      exact h.2 ▸ hk
  | throw e => simp at h
  | read _ next ih => exact ih _ h hk
  | lock _ next ih => exact ih _ h hk
  | claim _ next ih => exact ih _ h hk
  | put _ row next ih => exact ih h (Finmap.mem_insert.mpr (Or.inr hk))

end Tx

/-! ### All or nothing -/

variable {κ : Type} [DecidableEq κ] {ν : κ → Type} {ε α : Type}

/-- A body between `BEGIN` and `COMMIT` with nothing else running; an error rolls it back. -/
def atomically (body : Tx ν ε α) (db : Store ν) : Except ε α × Store ν :=
  match body.run db with
  | .ok (a, db') => (.ok a, db')
  | .error e => (.error e, db)

theorem atomically_of_ok {body : Tx ν ε α} {db db' : Store ν} {a : α}
    (h : body.run db = .ok (a, db')) : atomically body db = (.ok a, db') := by
  simp [atomically, h]

/-- A transaction that raises leaves the store as it was. -/
theorem atomically_of_error {body : Tx ν ε α} {db : Store ν} {e : ε}
    (h : body.run db = .error e) : atomically body db = (.error e, db) := by
  simp [atomically, h]

end Txn
