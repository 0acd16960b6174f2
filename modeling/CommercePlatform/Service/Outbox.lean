/-
The transactional outbox: nothing lost, nothing invented.

A row of the outbox is inserted by a business transaction and only ever changed by a
mark, which leaves alone what the row is published as.  So a tick may hold on to the
rows of its batch for as long as it likes: their messages are still those of committed
rows when they are sent, and sent when they are marked.

All three services have this law, as their transactions insert fresh rows only
(`Service/Rule.lean`).
-/
import CommercePlatform.Service.Node
import CommercePlatform.Service.Rule

namespace CommercePlatform

open Js Txn

variable {β : Type} [DecidableEq β] {ρ : β → Type} {ι : Type}

/-! ### The outbox in a commit -/

/-- A row that a transaction writes to the outbox is fresh, and its key had no row. -/
theorem outbox_write {rule : ι → Rule β} {s : Server (ServiceRow ρ) Error Unit ι} {i : ℕ}
    {σ : Session (ServiceRow ρ) Error Unit ι} {g : Grip (ServiceKey β)}
    (h : σ.Disciplined (rule σ.job).discipline s i g) {id : String} {row : OutboxRow}
    (hrow : σ.writes.lookup (ServiceKey.outbox id) = some row) :
    outboxAt s.db id = none ∧ row.Fresh := by
  obtain ⟨-, -, hclaimed, hfresh⟩ := h.writes (ServiceKey.outbox id) row hrow
  obtain ⟨-, hnew, -⟩ := h.claimed _ hclaimed
  exact ⟨Finmap.lookup_eq_none.mpr hnew, hfresh⟩

/-- A commit keeps the rows of the outbox, and adds fresh ones. -/
theorem outbox_commit {rule : ι → Rule β} {s s' : Server (ServiceRow ρ) Error Unit ι} {i : ℕ}
    (h : s.Disciplined fun job => (rule job).discipline) (hs : s.commit i = some s') :
    (∀ id row, outboxAt s.db id = some row → outboxAt s'.db id = some row) ∧
      ∀ id row, outboxAt s'.db id = some row → outboxAt s.db id = some row ∨ row.Fresh := by
  obtain ⟨σ, a, hσ, -, rfl⟩ := Server.commit_cases hs
  obtain ⟨g, hg⟩ := h i σ hσ
  have hview : ∀ id, outboxAt (σ.writes ∪ s.db) id =
      match σ.writes.lookup (ServiceKey.outbox id) with
      | some row => some row
      | none => outboxAt s.db id := by
    intro id
    cases hrow : σ.writes.lookup (ServiceKey.outbox id) with
    | some row =>
        have hmem : ServiceKey.outbox id ∈ σ.writes := Finmap.mem_iff.mpr ⟨row, hrow⟩
        rw [outboxAt, Finmap.lookup_union_left hmem, hrow]
    | none => exact Finmap.lookup_union_right (Finmap.lookup_eq_none.mp hrow)
  constructor
  · intro id row hrow
    show outboxAt (σ.writes ∪ s.db) id = some row
    rw [hview]
    cases hw : σ.writes.lookup (ServiceKey.outbox id) with
    | none => exact hrow
    | some row' =>
        have hnone := (outbox_write hg hw).1
        rw [hnone] at hrow
        simp at hrow
  · intro id row hrow
    have hrow' : outboxAt (σ.writes ∪ s.db) id = some row := hrow
    rw [hview] at hrow'
    cases hw : σ.writes.lookup (ServiceKey.outbox id) with
    | none =>
        rw [hw] at hrow'
        exact Or.inl hrow'
    | some row' =>
        rw [hw] at hrow'
        obtain rfl := Option.some.inj hrow'
        exact Or.inr (outbox_write hg hw).2

/-! ### The outbox under a mark -/

theorem outboxAt_markOutboxPublished (db : ServiceStore ρ) (id id' : String) (now : ℕ) :
    outboxAt (markOutboxPublished db id now) id' =
      (outboxAt db id').map fun row =>
        if id' = id then { row with publishedAt := some now } else row := by
  unfold markOutboxPublished
  cases hrow : outboxAt db id with
  | none =>
      by_cases hid : id' = id
      · subst hid
        simp only [hrow, Option.map_none]
      · simp [hid]
  | some row =>
      by_cases hid : id' = id
      · subst hid
        simp [outboxAt, hrow]
      · have hne : ServiceKey.outbox id' ≠ (ServiceKey.outbox id : ServiceKey β) := by
          simpa using hid
        simp [outboxAt, Finmap.lookup_insert_of_ne _ hne, hid]

/-- A mark changes no row of the service's own tables, and no processed event. -/
theorem lookup_markOutboxPublished {db : ServiceStore ρ} {id : String} {now : ℕ}
    {k : ServiceKey β} (hk : k ≠ .outbox id) :
    (markOutboxPublished db id now).lookup k = db.lookup k := by
  unfold markOutboxPublished
  split
  · rfl
  · exact Finmap.lookup_insert_of_ne _ hk

/-- A mark adds no row, and takes none away. -/
theorem mem_markOutboxPublished {db : ServiceStore ρ} {id : String} {now : ℕ} {k : ServiceKey β} :
    k ∈ markOutboxPublished db id now ↔ k ∈ db := by
  unfold markOutboxPublished
  cases hrow : outboxAt db id with
  | none => exact Iff.rfl
  | some row =>
      have hmem : ServiceKey.outbox id ∈ db := Finmap.mem_iff.mpr ⟨row, hrow⟩
      simp only [Finmap.mem_insert]
      exact ⟨fun h => h.elim (fun hk => hk ▸ hmem) fun hk => hk, Or.inr⟩

theorem of_mem_pendingOutbox {db : ServiceStore ρ} {scan : List String} {id : String}
    {row : OutboxRow} (h : (id, row) ∈ pendingOutbox db scan) :
    outboxAt db id = some row ∧ row.publishedAt = none := by
  obtain ⟨hmem, hnone⟩ := List.mem_filter.mp h
  obtain ⟨id', -, hid'⟩ := List.mem_filterMap.mp hmem
  obtain ⟨row', hrow', heq⟩ := Option.map_eq_some_iff.mp hid'
  obtain ⟨rfl, rfl⟩ := Prod.mk.inj heq
  exact ⟨hrow', by simpa using hnone⟩

/-- A row that is not marked is pending, in whatever order the rows are come upon. -/
theorem mem_pendingOutbox {db : ServiceStore ρ} {scan : List String} {id : String}
    {row : OutboxRow} (hscan : Scans db scan) (hrow : outboxAt db id = some row)
    (hnone : row.publishedAt = none) : (id, row) ∈ pendingOutbox db scan := by
  have hid : id ∈ scan :=
    hscan.2 (ServiceKey.outbox id) (Finmap.mem_keys.mpr (Finmap.mem_iff.mpr ⟨row, hrow⟩))
  refine List.mem_filter.mpr ⟨?_, by simpa using hnone⟩
  exact List.mem_filterMap.mpr ⟨id, hid, by rw [hrow]; rfl⟩

theorem nodup_pendingOutbox {db : ServiceStore ρ} {scan : List String} (hscan : Scans db scan) :
    ((pendingOutbox db scan).map Prod.fst).Nodup := by
  refine hscan.1.sublist (List.Sublist.trans (List.filter_sublist.map Prod.fst) ?_)
  rw [List.map_filterMap]
  have hid : ∀ id ∈ scan, ((outboxAt db id).map fun row => (id, row)).map Prod.fst =
      Option.guard (fun id => (outboxAt db id).isSome) id := by
    intro id _
    cases hrow : outboxAt db id <;> simp [Option.guard, hrow]
  rw [List.filterMap_congr hid, List.filterMap_eq_filter]
  exact List.filter_sublist

theorem mem_getPendingOutboxBatch {db : ServiceStore ρ} {scan : List String} {id : String}
    {row : OutboxRow} (h : (id, row) ∈ getPendingOutboxBatch db scan) :
    outboxAt db id = some row ∧ row.publishedAt = none :=
  of_mem_pendingOutbox ((List.mem_insertionSort _).mp (List.mem_of_mem_take h))

/-! ### The law -/

/-- The row is still there, and would still be published as the same message. -/
def Backed (db : ServiceStore ρ) (id : String) (message : KafkaMessage) : Prop :=
  ∃ row, outboxAt db id = some row ∧ row.message = message

/-- What holds of a service and its topics in every run. -/
structure OutboxLaw (rule : ι → Rule β) (n : Node ρ ι) : Prop where
  disciplined : n.server.Disciplined fun job => (rule job).discipline
  headers : ∀ id row, outboxAt n.server.db id = some row →
    "routingKey" ∉ row.headers.map Prod.fst ∧ (row.headers.map Prod.fst).Nodup
  /-- A row that is marked was sent. -/
  published : ∀ id row, outboxAt n.server.db id = some row → row.publishedAt.isSome →
    row.message ∈ n.sent
  /-- A message that was sent has a row. -/
  sent : ∀ message ∈ n.sent, ∃ id, Backed n.server.db id message
  /-- So has each message a tick is going to send. -/
  batch : ∀ t tick, n.ticks t = some tick → ∀ entry ∈ tick.rows,
    Backed n.server.db entry.1 entry.2.message
  /-- A tick marks what it has sent. -/
  head : ∀ t tick, n.ticks t = some tick → tick.sent = true → ∀ entry ∈ tick.rows.head?,
    entry.2.message ∈ n.sent

namespace OutboxLaw

variable {rule : ι → Rule β} {n n' : Node ρ ι}

theorem start {db₀ : ServiceStore ρ} (hempty : ∀ id, outboxAt db₀ id = none) :
    OutboxLaw rule (Node.start db₀ : Node ρ ι) where
  disciplined := Server.disciplined_start db₀
  headers id row hrow := by
    have : outboxAt db₀ id = some row := hrow
    simp [hempty] at this
  published id row hrow := by
    have : outboxAt db₀ id = some row := hrow
    simp [hempty] at this
  sent := by simp [Node.start]
  batch := by simp [Node.start]
  head := by simp [Node.start]

/--
A change of the database that keeps every row's message, adds unpublished rows with
proper headers, and publishes none that was not sent, keeps the law.
-/
theorem of_db (h : OutboxLaw rule n) {server : Server (ServiceRow ρ) Error Unit ι}
    (hdisc : server.Disciplined fun job => (rule job).discipline)
    (hkeep : ∀ id message, Backed n.server.db id message → Backed server.db id message)
    (hnew : ∀ id row, outboxAt server.db id = some row → row.Fresh ∨
      ∃ old, outboxAt n.server.db id = some old ∧ old.message = row.message ∧
        old.headers = row.headers ∧ (row.publishedAt = old.publishedAt ∨ row.message ∈ n.sent)) :
    OutboxLaw rule { n with server := server } where
  disciplined := hdisc
  headers id row hrow := by
    rcases hnew id row hrow with hfresh | ⟨old, hold, -, hheaders, -⟩
    · exact ⟨hfresh.noRoutingKey, hfresh.nodup⟩
    · exact hheaders ▸ h.headers id old hold
  published id row hrow hpublished := by
    rcases hnew id row hrow with hfresh | ⟨old, hold, hmessage, -, hsame | hsent⟩
    · rw [hfresh.unpublished] at hpublished
      simp at hpublished
    · rw [hsame] at hpublished
      exact hmessage ▸ h.published id old hold hpublished
    · exact hsent
  sent message hmessage := by
    obtain ⟨id, hid⟩ := h.sent message hmessage
    exact ⟨id, hkeep id message hid⟩
  batch t tick htick entry hentry := hkeep _ _ (h.batch t tick htick entry hentry)
  head := h.head

/-- Sending more, of what has rows, keeps the law. -/
theorem of_sent (h : OutboxLaw rule n) {sent : List KafkaMessage} (hkeep : n.sent ⊆ sent)
    (hnew : ∀ message ∈ sent, message ∈ n.sent ∨ ∃ id, Backed n.server.db id message) :
    OutboxLaw rule { n with sent := sent } where
  disciplined := h.disciplined
  headers := h.headers
  published id row hrow hpublished := hkeep (h.published id row hrow hpublished)
  sent message hmessage := (hnew message hmessage).elim (h.sent message) fun hback => hback
  batch := h.batch
  head t tick htick hsent entry hentry := hkeep (h.head t tick htick hsent entry hentry)

/-- So does a change of one tick to one that holds backed rows, and has sent what it is to mark. -/
theorem of_tick (h : OutboxLaw rule n) {t : ℕ} {tick : Option Tick}
    (hbatch : ∀ new, tick = some new → ∀ entry ∈ new.rows,
      Backed n.server.db entry.1 entry.2.message)
    (hhead : ∀ new, tick = some new → new.sent = true → ∀ entry ∈ new.rows.head?,
      entry.2.message ∈ n.sent) :
    OutboxLaw rule { n with ticks := Function.update n.ticks t tick } where
  disciplined := h.disciplined
  headers := h.headers
  published := h.published
  sent := h.sent
  batch t' tick' htick' := by
    by_cases ht : t' = t
    · subst ht
      exact hbatch tick' (by simpa using htick')
    · exact h.batch t' tick' (by simpa [Function.update_of_ne ht] using htick')
  head t' tick' htick' := by
    by_cases ht : t' = t
    · subst ht
      exact hhead tick' (by simpa using htick')
    · exact h.head t' tick' (by simpa [Function.update_of_ne ht] using htick')

theorem business (h : OutboxLaw rule n) {prog : ι → ServiceTx ρ Unit}
    (hobeys : ∀ job, (prog job).Obeys (rule job).discipline .none) {act : Act ι}
    {server : Server (ServiceRow ρ) Error Unit ι} (hs : n.server.step prog act = some server) :
    OutboxLaw rule { n with server := server } := by
  have hdisc := h.disciplined.step hobeys hs
  by_cases hcommit : ∃ i, act = .commit i
  · obtain ⟨i, rfl⟩ := hcommit
    obtain ⟨hkeep, hnew⟩ := outbox_commit h.disciplined hs
    refine h.of_db hdisc ?_ fun id row hrow => ?_
    · intro id message ⟨row, hrow, hmessage⟩
      exact ⟨row, hkeep id row hrow, hmessage⟩
    · rcases hnew id row hrow with hold | hfresh
      · exact Or.inr ⟨row, hold, rfl, rfl, Or.inl rfl⟩
      · exact Or.inl hfresh
  · have hdb : server.db = n.server.db :=
      Server.step_db hs fun i hi => hcommit ⟨i, hi⟩
    refine h.of_db hdisc ?_ fun id row hrow => ?_
    · intro id message hback
      rw [hdb]
      exact hback
    · rw [hdb] at hrow
      exact Or.inr ⟨row, hrow, rfl, rfl, Or.inl rfl⟩

theorem marked (h : OutboxLaw rule n) {id : String} {message : KafkaMessage} (now : ℕ)
    (hback : Backed n.server.db id message) (hsent : message ∈ n.sent) :
    OutboxLaw rule
      { n with server := { n.server with db := markOutboxPublished n.server.db id now } } := by
  obtain ⟨row, hrow, hmessage⟩ := hback
  have hmem : ServiceKey.outbox id ∈ n.server.db := Finmap.mem_iff.mpr ⟨row, hrow⟩
  have hdisc : ({ n.server with db := markOutboxPublished n.server.db id now } :
      Server (ServiceRow ρ) Error Unit ι).Disciplined fun job => (rule job).discipline := by
    have hdb : markOutboxPublished n.server.db id now =
        n.server.db.insert (ServiceKey.outbox id) { row with publishedAt := some now } := by
      simp [markOutboxPublished, hrow]
    rw [hdb]
    exact h.disciplined.update hmem
  refine h.of_db hdisc ?_ ?_
  · intro id' message' ⟨row', hrow', hmessage'⟩
    refine ⟨if id' = id then { row' with publishedAt := some now } else row', ?_, ?_⟩
    · show outboxAt (markOutboxPublished n.server.db id now) id' = _
      rw [outboxAt_markOutboxPublished, hrow']
      rfl
    · split
      · exact hmessage'
      · exact hmessage'
  · intro id' row' hrow'
    have hrow'' : outboxAt (markOutboxPublished n.server.db id now) id' = some row' := hrow'
    rw [outboxAt_markOutboxPublished] at hrow''
    obtain ⟨old, hold, heq⟩ := Option.map_eq_some_iff.mp hrow''
    refine Or.inr ⟨old, hold, ?_⟩
    by_cases hid : id' = id
    · subst hid
      simp only [if_true] at heq
      subst heq
      rw [hrow] at hold
      obtain rfl := Option.some.inj hold
      have hsent' : row.message ∈ n.sent := hmessage ▸ hsent
      exact ⟨rfl, rfl, Or.inr hsent'⟩
    · simp only [hid, if_false] at heq
      subst heq
      exact ⟨rfl, rfl, Or.inl rfl⟩

/-- **The law is kept by every step.** -/
theorem step (h : OutboxLaw rule n) {prog : ι → ServiceTx ρ Unit}
    (hobeys : ∀ job, (prog job).Obeys (rule job).discipline .none) {act : NodeAct ι}
    (hs : n.step prog act = some n') : OutboxLaw rule n' := by
  cases act with
  | business act =>
      obtain ⟨server, hserver, rfl⟩ := Option.map_eq_some_iff.mp hs
      exact h.business hobeys hserver
  | startTick t scan =>
      obtain ⟨-, -, rfl⟩ := Node.startTick_cases hs
      refine h.of_tick ?_ ?_
      · intro new hnew entry hentry
        obtain rfl := Option.some.inj hnew
        exact ⟨entry.2, (mem_getPendingOutboxBatch hentry).1, rfl⟩
      · intro new hnew hsent
        obtain rfl := Option.some.inj hnew
        simp at hsent
  | send t outcome =>
      obtain ⟨id, row, rest, htick, hserver, hcases⟩ := Node.send_cases hs
      have hback := h.batch t _ htick (id, row) (by simp)
      have hsent : OutboxLaw rule { n with sent := n.sent ++ [row.message] } := by
        refine h.of_sent (List.subset_append_left _ _) fun message hmessage => ?_
        rcases List.mem_append.mp hmessage with hold | hnew
        · exact Or.inl hold
        · exact Or.inr ⟨id, List.mem_singleton.mp hnew ▸ hback⟩
      obtain ⟨server', ticks', sent'⟩ := n'
      simp only at hserver hcases
      subst hserver
      rcases hcases with ⟨rfl, rfl⟩ | ⟨rfl | rfl, rfl⟩
      · refine hsent.of_tick ?_ ?_
        · intro new hnew
          obtain rfl := Option.some.inj hnew
          exact h.batch t { rows := (id, row) :: rest, sent := false } htick
        · intro new hnew _ entry hentry
          obtain rfl := Option.some.inj hnew
          have heq : entry = (id, row) := by simpa [eq_comm] using hentry
          simp [heq]
      · exact h.of_tick (by simp) (by simp)
      · exact hsent.of_tick (by simp) (by simp)
  | mark t now outcome =>
      obtain ⟨id, row, rest, htick, -, hsent, hserver, hticks⟩ := Node.mark_cases hs
      have hback := h.batch t _ htick (id, row) (by simp)
      have hrow := h.head t _ htick rfl (id, row) (by simp)
      have hbase : OutboxLaw rule { n with server := n'.server } := by
        rcases hserver with heq | heq
        · rw [heq]
          exact h.marked now hback hrow
        · rw [heq]
          exact h
      obtain ⟨server', ticks', sent'⟩ := n'
      simp only at hsent hticks hbase
      subst hsent
      rcases hticks with rfl | rfl
      · refine hbase.of_tick ?_ ?_
        · intro new hnew entry hentry
          obtain rfl := Option.some.inj hnew
          exact hbase.batch t _ htick entry (List.mem_cons_of_mem _ hentry)
        · intro new hnew hsent
          obtain rfl := Option.some.inj hnew
          simp at hsent
      · exact hbase.of_tick (by simp) (by simp)
  | kill t =>
      obtain rfl := Node.kill_cases hs
      exact h.of_tick (by simp) (by simp)

theorem of_reach {prog : ι → ServiceTx ρ Unit}
    (hobeys : ∀ job, (prog job).Obeys (rule job).discipline .none) {db₀ : ServiceStore ρ}
    (hempty : ∀ id, outboxAt db₀ id = none) (h : Node.Reach prog db₀ n) : OutboxLaw rule n := by
  induction h with
  | start => exact .start hempty
  | step _ hs ih => exact ih.step hobeys hs

end OutboxLaw

end CommercePlatform
