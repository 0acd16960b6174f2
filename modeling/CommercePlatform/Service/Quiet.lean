/-
A service can always catch up.

Whatever a service is in the middle of, it can drop: sessions are rolled back and ticks
end early.  Then nothing is locked, every row that is not marked is published by some
tick, and every transaction whose body would succeed can be run and committed.
-/
import CommercePlatform.Machine.Simulation
import CommercePlatform.Txn.Alone
import CommercePlatform.Service.Steps

namespace CommercePlatform

open Js Txn

variable {β : Type} [DecidableEq β] {ρ : β → Type} {ι : Type}

namespace Alike

theorem trans {db db' db'' : ServiceStore ρ} (h : Alike db db') (h' : Alike db' db'') :
    Alike db db'' where
  own key := (h'.own key).trans (h.own key)
  processed eventId := (h'.processed eventId).trans (h.processed eventId)
  outbox id := by
    refine ⟨(h'.outbox id).1.trans (h.outbox id).1, fun row'' hrow'' => ?_⟩
    obtain ⟨row', hrow', heq'⟩ := (h'.outbox id).2 row'' hrow''
    obtain ⟨row, hrow, heq⟩ := (h.outbox id).2 row' hrow'
    refine ⟨row, hrow, ?_⟩
    rw [heq', heq]

end Alike

/-- The rows of the outbox that are not marked. -/
def unmarked (db : ServiceStore ρ) : Finset String :=
  (db.keys.image ServiceKey.outboxId).filter fun id =>
    (outboxAt db id).any fun row => row.publishedAt.isNone

theorem mem_unmarked {db : ServiceStore ρ} {id : String} :
    id ∈ unmarked db ↔ ∃ row, outboxAt db id = some row ∧ row.publishedAt = none := by
  unfold unmarked
  rw [Finset.mem_filter, Option.any_eq_true]
  constructor
  · intro ⟨_, row, hrow, hnone⟩
    exact ⟨row, hrow, Option.isNone_iff_eq_none.mp hnone⟩
  · intro ⟨row, hrow, hnone⟩
    refine ⟨Finset.mem_image.mpr ⟨.outbox id, ?_, rfl⟩, row, hrow, by rw [hnone]; rfl⟩
    exact Finmap.mem_keys.mpr (Finmap.mem_iff.mpr ⟨row, hrow⟩)

/-- A mark leaves less to mark. -/
theorem unmarked_mark {db : ServiceStore ρ} {id : String} (now : ℕ) (h : id ∈ unmarked db) :
    (unmarked (markOutboxPublished db id now)).card < (unmarked db).card := by
  refine Finset.card_lt_card (Finset.ssubset_iff_of_subset ?_ |>.mpr ⟨id, h, ?_⟩)
  · intro id' hid'
    obtain ⟨row', hrow', hnone⟩ := mem_unmarked.mp hid'
    rw [outboxAt_markOutboxPublished] at hrow'
    obtain ⟨row, hrow, heq⟩ := Option.map_eq_some_iff.mp hrow'
    refine mem_unmarked.mpr ⟨row, hrow, ?_⟩
    by_cases hid : id' = id
    · rw [if_pos hid] at heq
      rw [← heq] at hnone
      simp at hnone
    · rw [if_neg hid] at heq
      rw [heq, hnone]
  · intro hmem
    obtain ⟨row', hrow', hnone⟩ := mem_unmarked.mp hmem
    rw [outboxAt_markOutboxPublished] at hrow'
    obtain ⟨row, -, heq⟩ := Option.map_eq_some_iff.mp hrow'
    rw [if_pos rfl] at heq
    rw [← heq] at hnone
    simp at hnone

omit [DecidableEq β] in
/-- The rows can be come upon in some order. -/
theorem exists_scans (db : ServiceStore ρ) : ∃ scan, Scans db scan := by
  refine ⟨(db.keys.image ServiceKey.outboxId).toList, Finset.nodup_toList _, fun k hk => ?_⟩
  cases k with
  | own key => trivial
  | processed eventId => trivial
  | outbox id => exact Finset.mem_toList.mpr (Finset.mem_image.mpr ⟨.outbox id, hk, rfl⟩)

/-- While there is something to publish, a batch has something in it. -/
theorem exists_batch {db : ServiceStore ρ} {scan : List String} (hscan : Scans db scan) {id : String}
    (h : id ∈ unmarked db) :
    ∃ id' row rest, getPendingOutboxBatch db scan = (id', row) :: rest ∧ id' ∈ unmarked db := by
  obtain ⟨row, hrow, hnone⟩ := mem_unmarked.mp h
  have hpending := mem_pendingOutbox hscan hrow hnone
  cases hbatch : getPendingOutboxBatch db scan with
  | nil =>
      have hsorted := (List.mem_insertionSort fun a b : String × OutboxRow =>
        a.2.createdAt ≤ b.2.createdAt).mpr hpending
      unfold getPendingOutboxBatch at hbatch
      rw [List.take_eq_nil_iff] at hbatch
      rw [hbatch.resolve_left (by omega)] at hsorted
      simp at hsorted
  | cons entry rest =>
      have hmem : (entry.1, entry.2) ∈ getPendingOutboxBatch db scan := by
        rw [hbatch]
        exact List.mem_cons_self
      exact ⟨entry.1, entry.2, rest, rfl, mem_unmarked.mpr ⟨_, mem_getPendingOutboxBatch hmem⟩⟩

namespace Node

variable {prog : ι → ServiceTx ρ Unit}

/-- A step that the service makes by itself. -/
def Works (prog : ι → ServiceTx ρ Unit) (n n' : Node ρ ι) : Prop :=
  ∃ w : Work, n.step prog w.act = some n'

/-- No transaction is open and no tick is under way. -/
structure Quiet (n : Node ρ ι) : Prop where
  server : n.server.Idle
  ticks : ∀ t, n.ticks t = none

structure Tidy (n : Node ρ ι) : Prop where
  server : n.server.Tidy
  /-- All ticks are numbered below a bound. -/
  ticks : ∃ bound, ∀ t, bound ≤ t → n.ticks t = none

omit [DecidableEq β] in
theorem tidy_start (db : ServiceStore ρ) : (Node.start db : Node ρ ι).Tidy :=
  ⟨Server.tidy_start db, 0, fun _ _ => rfl⟩

omit [DecidableEq β] in
theorem ticks_update {ticks : ℕ → Option Tick} (h : ∃ bound, ∀ t, bound ≤ t → ticks t = none)
    (t : ℕ) (tick : Option Tick) :
    ∃ bound, ∀ t', bound ≤ t' → Function.update ticks t tick t' = none := by
  obtain ⟨bound, hbound⟩ := h
  refine ⟨bound + t + 1, fun t' ht' => ?_⟩
  have hne : t' ≠ t := by omega
  exact (Function.update_of_ne hne _ _).trans (hbound t' (by omega))

theorem Tidy.step {n n' : Node ρ ι} (h : n.Tidy) {act : NodeAct ι}
    (hs : n.step prog act = some n') : n'.Tidy := by
  refine ⟨?_, ?_⟩
  · rcases server_cases hs with ⟨act, -, hserver⟩ |
      ⟨-, hserver | ⟨-, id, -, -, now, -, -, hserver⟩⟩
    · exact h.server.step hserver
    · exact hserver ▸ h.server
    · rw [hserver]
      exact ⟨h.server.bounded, h.server.held⟩
  · cases act with
    | business act =>
        obtain ⟨server, -, rfl⟩ := Option.map_eq_some_iff.mp hs
        exact h.ticks
    | startTick t scan =>
        obtain ⟨-, -, rfl⟩ := startTick_cases hs
        exact ticks_update h.ticks t _
    | send t outcome =>
        obtain ⟨_, _, _, -, -, ⟨-, hticks⟩ | ⟨-, hticks⟩⟩ := send_cases hs
        · exact hticks ▸ ticks_update h.ticks t _
        · exact hticks ▸ ticks_update h.ticks t _
    | mark t now outcome =>
        obtain ⟨_, _, _, -, -, -, -, hticks | hticks⟩ := mark_cases hs
        · exact hticks ▸ ticks_update h.ticks t _
        · exact hticks ▸ ticks_update h.ticks t _
    | kill t =>
        obtain rfl := kill_cases hs
        exact ticks_update h.ticks t _

/-- What has been committed stays committed. -/
theorem history_kept {n n' : Node ρ ι} {act : NodeAct ι} (hs : n.step prog act = some n') {job : ι}
    (hjob : job ∈ n.server.history) : job ∈ n'.server.history := by
  rcases server_cases hs with ⟨act, -, hserver⟩ |
    ⟨-, hserver | ⟨-, id, -, -, now, -, -, hserver⟩⟩
  · cases act with
    | begin i job =>
        obtain ⟨-, heq⟩ := Server.begin_cases hserver
        rwa [heq]
    | exec i =>
        obtain ⟨_, _, _, -, -, -, -, hhistory, -⟩ := Server.exec_cases hserver
        rwa [hhistory]
    | commit i =>
        obtain ⟨_, _, -, -, heq⟩ := Server.commit_cases hserver
        rw [heq]
        exact List.mem_append_left _ hjob
    | rollback i =>
        obtain ⟨_, -, heq⟩ := Server.rollback_cases hserver
        rwa [heq]
  · rwa [hserver]
  · rwa [hserver]

/-- What goes on in the server goes on in the service. -/
theorem works_of_goes {n : Node ρ ι} {server : Server (ServiceRow ρ) Error Unit ι}
    (h : Relation.ReflTransGen Server.Goes n.server server) :
    Relation.ReflTransGen (Works prog) n { n with server := server } := by
  induction h with
  | refl => exact .refl
  | @tail s s' _ hgoes ih =>
      refine ih.tail ?_
      obtain ⟨i, hexec | hcommit | hrollback⟩ := hgoes
      · exact ⟨.exec i, by simp [Work.act, step, Server.step, hexec]⟩
      · exact ⟨.commit i, by simp [Work.act, step, Server.step, hcommit]⟩
      · exact ⟨.rollback i, by simp [Work.act, step, Server.step, hrollback]⟩

/-- The ticks under way may all end at once. -/
theorem exists_ticks_ended {n : Node ρ ι} (h : ∃ bound, ∀ t, bound ≤ t → n.ticks t = none) :
    Relation.ReflTransGen (Works prog) n { n with ticks := fun _ => none } := by
  obtain ⟨bound, hbound⟩ := h
  induction bound generalizing n with
  | zero =>
      have hnone : n.ticks = fun _ => none := funext fun t => hbound t (Nat.zero_le t)
      rw [← hnone]
  | succ bound ih =>
      cases htick : n.ticks bound with
      | none =>
          refine ih fun t ht => ?_
          rcases Nat.eq_or_lt_of_le ht with rfl | hlt
          · exact htick
          · exact hbound t hlt
      | some tick =>
          have hkill : n.step prog (Work.kill bound).act =
              some { n with ticks := Function.update n.ticks bound none } := by
            show n.kill bound = _
            unfold kill
            rw [htick]
          refine (ih (n := { n with ticks := Function.update n.ticks bound none })
            fun t ht => ?_).head ⟨.kill bound, hkill⟩
          rcases Nat.eq_or_lt_of_le ht with rfl | hlt
          · exact Function.update_self _ _ _
          · exact (Function.update_of_ne (by omega) _ _).trans (hbound t hlt)

/-- **A service can drop whatever it is in the middle of.** -/
theorem exists_quiet (prog : ι → ServiceTx ρ Unit) {n : Node ρ ι} (h : n.Tidy) :
    ∃ n', Relation.ReflTransGen (Works prog) n n' ∧ n'.Quiet ∧ n'.server.db = n.server.db ∧
      n'.server.history = n.server.history ∧ n'.sent = n.sent := by
  obtain ⟨server, hgoes, hidle, hdb, hhistory⟩ := Server.exists_idle prog h.server
  refine ⟨{ n with server := server, ticks := fun _ => none }, ?_, ⟨hidle, fun _ => rfl⟩, hdb,
    hhistory, rfl⟩
  exact (works_of_goes hgoes).trans (exists_ticks_ended (n := { n with server := server }) h.ticks)

/-- A service that is quiet can publish a row, and be quiet again. -/
theorem Quiet.exists_marked (prog : ι → ServiceTx ρ Unit) {n : Node ρ ι} (h : n.Quiet) {id : String}
    (hid : id ∈ unmarked n.server.db) :
    ∃ n', Relation.ReflTransGen (Works prog) n n' ∧ n'.Quiet ∧
      n'.server.history = n.server.history ∧ Alike n.server.db n'.server.db ∧
      (unmarked n'.server.db).card < (unmarked n.server.db).card := by
  obtain ⟨scan, hscan⟩ := exists_scans n.server.db
  obtain ⟨id', row, rest, hbatch, hid'⟩ := exists_batch hscan hid
  let started : Node ρ ι := { n with
    ticks := Function.update n.ticks 0 (some { rows := (id', row) :: rest, sent := false }) }
  let sent : Node ρ ι := { started with
    ticks := Function.update started.ticks 0 (some { rows := (id', row) :: rest, sent := true })
    sent := n.sent ++ [row.message] }
  let marked : Node ρ ι := { sent with
    server := { n.server with db := markOutboxPublished n.server.db id' 0 }
    ticks := Function.update sent.ticks 0 (some { rows := rest, sent := false }) }
  have hstart : n.step prog (Work.startTick 0 scan).act = some started := by
    show n.startTick 0 scan = _
    simp [startTick, h.ticks 0, hscan, hbatch, started]
  have hsend : started.step prog (Work.send 0 .resolved).act = some sent := by
    show started.send 0 .resolved = _
    simp [send, started, sent]
  have hmark : sent.step prog (Work.mark 0 0 .resolved).act = some marked := by
    show sent.mark 0 0 .resolved = _
    simp [mark, started, sent, marked, h.server.locks]
  have hkill : marked.step prog (Work.kill 0).act =
      some { marked with ticks := Function.update marked.ticks 0 none } := by
    show marked.kill 0 = _
    simp [kill, marked]
  refine ⟨_, .head ⟨_, hstart⟩ (.head ⟨_, hsend⟩ (.head ⟨_, hmark⟩ (.single ⟨_, hkill⟩))),
    ⟨⟨h.server.sessions, h.server.locks⟩, fun t => ?_⟩, rfl, .mark n.server.db id' 0,
    unmarked_mark 0 hid'⟩
  by_cases ht : t = 0
  · subst ht
    exact Function.update_self (0 : ℕ) (none : Option Tick) marked.ticks
  · simp [marked, sent, started, Function.update_of_ne ht, h.ticks t]

/-- **A service that is quiet can publish all it has to publish.** -/
theorem Quiet.exists_published (prog : ι → ServiceTx ρ Unit) {n : Node ρ ι} (h : n.Quiet) :
    ∃ n', Relation.ReflTransGen (Works prog) n n' ∧ n'.Quiet ∧
      n'.server.history = n.server.history ∧ Alike n.server.db n'.server.db ∧
      unmarked n'.server.db = ∅ := by
  let I : Node ρ ι → Prop := fun n' => n'.Quiet ∧ n'.server.history = n.server.history ∧
    Alike n.server.db n'.server.db
  have hless : ∀ n₁, I n₁ → unmarked n₁.server.db = ∅ ∨
      ∃ n₂, Relation.ReflTransGen (Works prog) n₁ n₂ ∧ I n₂ ∧
        (unmarked n₂.server.db).card < (unmarked n₁.server.db).card := by
    intro n₁ ⟨hquiet, hhistory, halike⟩
    rcases Finset.eq_empty_or_nonempty (unmarked n₁.server.db) with hempty | ⟨id, hid⟩
    · exact Or.inl hempty
    · obtain ⟨n₂, hrun, hquiet₂, hhistory₂, halike₂, hlt⟩ := hquiet.exists_marked prog hid
      exact Or.inr ⟨n₂, hrun, ⟨hquiet₂, hhistory₂.trans hhistory, halike.trans halike₂⟩, hlt⟩
  obtain ⟨n', hrun, ⟨hquiet, hhistory, halike⟩, hdone⟩ := Machine.exists_done I
    (fun n' => unmarked n'.server.db = ∅) (fun n' => (unmarked n'.server.db).card) hless
    ⟨h, rfl, .refl _⟩
  exact ⟨n', hrun, hquiet, hhistory, halike, hdone⟩

/-- A service that is quiet can do any job that would succeed, and be quiet again. -/
theorem Quiet.exists_done (prog : ι → ServiceTx ρ Unit) {n : Node ρ ι} (h : n.Quiet) (i : ℕ)
    (job : ι) {db' : ServiceStore ρ}
    (hrun : (prog job).run n.server.db = .ok ((), db')) :
    ∃ n₁ n', n.step prog (.business (.begin i job)) = some n₁ ∧
      Relation.ReflTransGen (Works prog) n₁ n' ∧ n'.Quiet ∧ n'.server.db = db' ∧
      n'.server.history = n.server.history ++ [job] ∧ n'.sent = n.sent := by
  obtain ⟨server₁, server', hbegin, hgoes, hidle, hdb, hhistory⟩ :=
    h.server.exists_done prog i job hrun
  have hstep : n.step prog (.business (.begin i job)) = some { n with server := server₁ } := by
    simp [step, Server.step, hbegin]
  exact ⟨_, { n with server := server' }, hstep,
    works_of_goes (n := { n with server := server₁ }) hgoes, ⟨hidle, h.ticks⟩, hdb, hhistory, rfl⟩

end Node

end CommercePlatform
