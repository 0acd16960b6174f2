/-
One service at run time: its database, its publisher and its topics.

`startOutboxPublisher` starts a tick every 1.5 seconds whether or not the last one is
over, so any number of ticks may be under way.  A tick takes a batch of unpublished
rows once, outside any transaction, and then sends and marks them one by one; it ends
early when a send or a mark is rejected, or when the process dies.

A send that is resolved has stored the message.  One that is rejected may have stored
it too, and a mark that is rejected may have been applied.
-/
import CommercePlatform.Txn.Server
import CommercePlatform.Service.Schema
import Mathlib.Data.List.Sort

namespace CommercePlatform

open Js Txn

/-- The message a row is published as. -/
def OutboxRow.message (row : OutboxRow) : KafkaMessage :=
  publishEvent row.topic row.routingKey row.payload row.headers

/-- A run of `publishOutboxBatch` under way. -/
structure Tick where
  /-- The rows of the batch that are not done. -/
  rows : List (String × OutboxRow)
  /-- The first of them has been sent. -/
  sent : Bool

/-- A service, and every message it has stored in a topic. -/
structure Node {β : Type} (ρ : β → Type) (ι : Type) where
  server : Server (ServiceRow ρ) Error Unit ι
  ticks : ℕ → Option Tick
  sent : List KafkaMessage

/-- How `producer.send` ends. -/
inductive SendOutcome where
  | resolved
  | rejected (stored : Bool)

/-- How `markOutboxPublished` ends. -/
inductive MarkOutcome where
  | resolved
  | rejected (applied : Bool)

inductive NodeAct (ι : Type) where
  /-- A step of a business transaction. -/
  | business (act : Act ι)
  /-- The query of a batch; `scan` is the order in which the server comes upon the rows. -/
  | startTick (t : ℕ) (scan : List String)
  | send (t : ℕ) (outcome : SendOutcome)
  | mark (t : ℕ) (now : ℕ) (outcome : MarkOutcome)
  | kill (t : ℕ)

/-- What a service does by itself: anything but open a transaction. -/
inductive Work where
  | exec (i : ℕ)
  | commit (i : ℕ)
  | rollback (i : ℕ)
  | startTick (t : ℕ) (scan : List String)
  | send (t : ℕ) (outcome : SendOutcome)
  | mark (t : ℕ) (now : ℕ) (outcome : MarkOutcome)
  | kill (t : ℕ)

def Work.act {ι : Type} : Work → NodeAct ι
  | .exec i => .business (.exec i)
  | .commit i => .business (.commit i)
  | .rollback i => .business (.rollback i)
  | .startTick t scan => .startTick t scan
  | .send t outcome => .send t outcome
  | .mark t now outcome => .mark t now outcome
  | .kill t => .kill t

variable {β : Type} [DecidableEq β] {ρ : β → Type} {ι : Type}

/-- The scan comes upon every row of the outbox, and upon none twice. -/
def Scans (db : ServiceStore ρ) (scan : List String) : Prop :=
  scan.Nodup ∧ ∀ k ∈ db.keys, match k with
    | .outbox id => id ∈ scan
    | _ => True

instance (db : ServiceStore ρ) (scan : List String) : Decidable (Scans db scan) := by
  unfold Scans
  have : DecidablePred fun k : ServiceKey β => match k with
      | .outbox id => id ∈ scan
      | _ => True := by
    intro k
    cases k <;> infer_instance
  infer_instance

/-- `… WHERE published_at IS NULL`. -/
def pendingOutbox (db : ServiceStore ρ) (scan : List String) : List (String × OutboxRow) :=
  (scan.filterMap fun id => (outboxAt db id).map fun row => (id, row)).filter
    fun entry => entry.2.publishedAt = none

/-- `getPendingOutboxBatch`: `… ORDER BY created_at LIMIT 25`. -/
def getPendingOutboxBatch (db : ServiceStore ρ) (scan : List String) :
    List (String × OutboxRow) :=
  ((pendingOutbox db scan).insertionSort fun a b => a.2.createdAt ≤ b.2.createdAt).take 25

/-- `markOutboxPublished`. -/
def markOutboxPublished (db : ServiceStore ρ) (id : String) (now : ℕ) : ServiceStore ρ :=
  match outboxAt db id with
  | none => db
  | some row => db.insert (ServiceKey.outbox id) { row with publishedAt := some now }

namespace Node

/-- A service with the given rows, before anything runs. -/
def start (db : ServiceStore ρ) : Node ρ ι :=
  { server := .start db, ticks := fun _ => none, sent := [] }

def startTick (n : Node ρ ι) (t : ℕ) (scan : List String) : Option (Node ρ ι) :=
  match n.ticks t with
  | some _ => none
  | none =>
      if Scans n.server.db scan then
        some { n with
          ticks := Function.update n.ticks t
            (some { rows := getPendingOutboxBatch n.server.db scan, sent := false }) }
      else none

/-- `publishEvent` of the next row of a tick. -/
def send (n : Node ρ ι) (t : ℕ) (outcome : SendOutcome) : Option (Node ρ ι) :=
  match n.ticks t with
  | some { rows := (id, row) :: rest, sent := false } =>
      match outcome with
      | .resolved => some { n with
          ticks := Function.update n.ticks t (some { rows := (id, row) :: rest, sent := true })
          sent := n.sent ++ [row.message] }
      | .rejected stored => some { n with
          ticks := Function.update n.ticks t none
          sent := if stored then n.sent ++ [row.message] else n.sent }
  | _ => none

/-- The mark waits while a transaction holds the row. -/
def mark (n : Node ρ ι) (t : ℕ) (now : ℕ) (outcome : MarkOutcome) : Option (Node ρ ι) :=
  match n.ticks t with
  | some { rows := (id, _) :: rest, sent := true } =>
      if n.server.locks (.outbox id) = none then
        let marked := { n.server with db := markOutboxPublished n.server.db id now }
        match outcome with
        | .resolved => some { n with
            server := marked
            ticks := Function.update n.ticks t (some { rows := rest, sent := false }) }
        | .rejected applied => some { n with
            server := if applied then marked else n.server
            ticks := Function.update n.ticks t none }
      else none
  | _ => none

def kill (n : Node ρ ι) (t : ℕ) : Option (Node ρ ι) :=
  match n.ticks t with
  | none => none
  | some _ => some { n with ticks := Function.update n.ticks t none }

/-- One step of a service whose transactions are `prog`. -/
def step (prog : ι → ServiceTx ρ Unit) (n : Node ρ ι) : NodeAct ι → Option (Node ρ ι)
  | .business act => (n.server.step prog act).map fun server => { n with server := server }
  | .startTick t scan => n.startTick t scan
  | .send t outcome => n.send t outcome
  | .mark t now outcome => n.mark t now outcome
  | .kill t => n.kill t

/-- The states of a service after any run from `db₀`. -/
inductive Reach (prog : ι → ServiceTx ρ Unit) (db₀ : ServiceStore ρ) : Node ρ ι → Prop where
  | start : Reach prog db₀ (start db₀)
  | step {n n' : Node ρ ι} {act : NodeAct ι} (h : Reach prog db₀ n)
      (hs : n.step prog act = some n') : Reach prog db₀ n'

/-- The service after one step after the other, if each is enabled. -/
def run (prog : ι → ServiceTx ρ Unit) : List (NodeAct ι) → Node ρ ι → Option (Node ρ ι)
  | [], n => some n
  | act :: rest, n => (n.step prog act).bind (run prog rest)

theorem Reach.of_run {prog : ι → ServiceTx ρ Unit} {db₀ : ServiceStore ρ} {n n' : Node ρ ι}
    {acts : List (NodeAct ι)} (h : Reach prog db₀ n) (hrun : run prog acts n = some n') :
    Reach prog db₀ n' := by
  induction acts generalizing n with
  | nil =>
      obtain rfl := Option.some.inj hrun
      exact h
  | cons act rest ih =>
      obtain ⟨n₁, hstep, hrest⟩ := Option.bind_eq_some_iff.mp hrun
      exact ih (h.step hstep) hrest

/-! ### What a step can do -/

theorem startTick_cases {n n' : Node ρ ι} {t : ℕ} {scan : List String}
    (h : n.startTick t scan = some n') :
    n.ticks t = none ∧ Scans n.server.db scan ∧
      n' = { n with
        ticks := Function.update n.ticks t
          (some { rows := getPendingOutboxBatch n.server.db scan, sent := false }) } := by
  unfold startTick at h
  split at h
  · simp at h
  · rename_i hnone
    split at h
    · exact ⟨hnone, ‹_›, (Option.some.inj h).symm⟩
    · simp at h

omit [DecidableEq β] in
theorem send_cases {n n' : Node ρ ι} {t : ℕ} {outcome : SendOutcome}
    (h : n.send t outcome = some n') :
    ∃ id row rest, n.ticks t = some { rows := (id, row) :: rest, sent := false } ∧
      n'.server = n.server ∧
      ((n'.sent = n.sent ++ [row.message] ∧
          n'.ticks = Function.update n.ticks t
            (some { rows := (id, row) :: rest, sent := true })) ∨
        ((n'.sent = n.sent ∨ n'.sent = n.sent ++ [row.message]) ∧
          n'.ticks = Function.update n.ticks t none)) := by
  unfold send at h
  split at h
  · rename_i id row rest htick
    refine ⟨id, row, rest, htick, ?_⟩
    cases outcome with
    | resolved =>
        obtain rfl := Option.some.inj h
        exact ⟨rfl, Or.inl ⟨rfl, rfl⟩⟩
    | rejected stored =>
        obtain rfl := Option.some.inj h
        cases stored with
        | true => exact ⟨rfl, Or.inr ⟨Or.inr rfl, rfl⟩⟩
        | false => exact ⟨rfl, Or.inr ⟨Or.inl rfl, rfl⟩⟩
  · simp at h

theorem mark_cases {n n' : Node ρ ι} {t now : ℕ} {outcome : MarkOutcome}
    (h : n.mark t now outcome = some n') :
    ∃ id row rest, n.ticks t = some { rows := (id, row) :: rest, sent := true } ∧
      n.server.locks (.outbox id) = none ∧ n'.sent = n.sent ∧
      (n'.server = { n.server with db := markOutboxPublished n.server.db id now } ∨
        n'.server = n.server) ∧
      (n'.ticks = Function.update n.ticks t (some { rows := rest, sent := false }) ∨
        n'.ticks = Function.update n.ticks t none) := by
  unfold mark at h
  split at h
  · rename_i id row rest htick
    split at h
    · rename_i hfree
      refine ⟨id, row, rest, htick, hfree, ?_⟩
      cases outcome with
      | resolved =>
          obtain rfl := Option.some.inj h
          exact ⟨rfl, Or.inl rfl, Or.inl rfl⟩
      | rejected applied =>
          obtain rfl := Option.some.inj h
          cases applied with
          | true => exact ⟨rfl, Or.inl rfl, Or.inr rfl⟩
          | false => exact ⟨rfl, Or.inr rfl, Or.inr rfl⟩
    · simp at h
  · simp at h

omit [DecidableEq β] in
theorem kill_cases {n n' : Node ρ ι} {t : ℕ} (h : n.kill t = some n') :
    n' = { n with ticks := Function.update n.ticks t none } := by
  unfold kill at h
  split at h
  · simp at h
  · exact (Option.some.inj h).symm

/-- **All that the publisher does to the server is to mark a row that it has sent.** -/
theorem server_cases {prog : ι → ServiceTx ρ Unit} {n n' : Node ρ ι} {act : NodeAct ι}
    (h : n.step prog act = some n') :
    (∃ a, act = .business a ∧ n.server.step prog a = some n'.server) ∨
      (∀ a, act ≠ .business a) ∧ (n'.server = n.server ∨
        ∃ t id row rest now, n.ticks t = some { rows := (id, row) :: rest, sent := true } ∧
          n.server.locks (.outbox id) = none ∧
          n'.server = { n.server with db := markOutboxPublished n.server.db id now }) := by
  cases act with
  | business a =>
      obtain ⟨server, hserver, rfl⟩ := Option.map_eq_some_iff.mp h
      exact Or.inl ⟨a, rfl, hserver⟩
  | startTick t scan =>
      obtain ⟨-, -, rfl⟩ := startTick_cases h
      exact Or.inr ⟨by simp, Or.inl rfl⟩
  | send t outcome =>
      obtain ⟨-, -, -, -, hserver, -⟩ := send_cases h
      exact Or.inr ⟨by simp, Or.inl hserver⟩
  | mark t now outcome =>
      obtain ⟨id, row, rest, htick, hfree, -, hserver | hserver, -⟩ := mark_cases h
      · exact Or.inr ⟨by simp, Or.inr ⟨t, id, row, rest, now, htick, hfree, hserver⟩⟩
      · exact Or.inr ⟨by simp, Or.inl hserver⟩
  | kill t =>
      obtain rfl := kill_cases h
      exact Or.inr ⟨by simp, Or.inl rfl⟩

end Node

theorem Work.act_eq_business {w : Work} {a : Act ι} (h : w.act = NodeAct.business a) :
    (∃ i, w = .exec i ∧ a = .exec i) ∨ (∃ i, w = .commit i ∧ a = .commit i) ∨
      ∃ i, w = .rollback i ∧ a = .rollback i := by
  cases w with
  | exec i => exact Or.inl ⟨i, rfl, (NodeAct.business.inj h).symm⟩
  | commit i => exact Or.inr (Or.inl ⟨i, rfl, (NodeAct.business.inj h).symm⟩)
  | rollback i => exact Or.inr (Or.inr ⟨i, rfl, (NodeAct.business.inj h).symm⟩)
  | startTick t scan => simp [Work.act] at h
  | send t outcome => simp [Work.act] at h
  | mark t now outcome => simp [Work.act] at h
  | kill t => simp [Work.act] at h

end CommercePlatform
