/-
The order in which events are published.

A tick takes a batch in the order of `created_at` and sends it in that order, and it goes
no further than the first send or mark that fails.  What orders the batches of different
ticks is that each is closed under earlier rows: a row that was committed first is in
every batch that a later row is in, and before it, unless it has been published already.

Which rows a run has published, and in which order, is not in the topics but in the sends
themselves.  So a run is followed here by the identifiers of the rows it sends.
-/
import CommercePlatform.Publishing

namespace CommercePlatform

open Js Txn

variable {β : Type} [DecidableEq β] {ρ : β → Type} {ι : Type}

/-! ### What is sent before what -/

/-- Wherever `b` is in the list, `a` is before it. -/
def ComesFirst (a b : String) (log : List String) : Prop :=
  ∀ pre post, log = pre ++ b :: post → a ∈ pre

theorem comesFirst_of_not_mem {a b : String} {log : List String} (h : b ∉ log) :
    ComesFirst a b log := by
  intro pre post hlog
  rw [hlog] at h
  simp at h

theorem ComesFirst.append {a b c : String} {log : List String} (h : ComesFirst a b log)
    (hnew : c = b → a ∈ log) : ComesFirst a b (log ++ [c]) := by
  intro pre post hlog
  rcases List.append_eq_append_iff.mp hlog with ⟨more, rfl, hmore⟩ | ⟨more, rfl, hmore⟩
  · cases more with
    | nil =>
        have hcb : c = b := by simpa using (List.cons.inj hmore).1
        simpa using hnew hcb
    | cons first rest => simp at hmore
  · cases more with
    | nil =>
        have hcb : b = c := by simpa using (List.cons.inj hmore).1
        simpa using hnew hcb.symm
    | cons first rest =>
        obtain ⟨rfl, rfl⟩ := List.cons.inj hmore
        exact h pre rest rfl

/-- What holds of a list holds of its beginnings. -/
theorem ComesFirst.of_append {a b : String} {log more : List String}
    (h : ComesFirst a b (log ++ more)) : ComesFirst a b log := by
  intro pre post hlog
  exact h pre (post ++ more) (by simp [hlog])

theorem comesFirst_of_sublist {a b : String} {log : List String} (h : [a, b].Sublist log)
    (hnodup : log.Nodup) : ComesFirst a b log := by
  intro pre post hlog
  subst hlog
  have hlate : b ∉ post := (List.nodup_cons.mp (List.nodup_append.mp hnodup).2.1).1
  obtain ⟨left, right, hsplit, hleft, hright⟩ := List.sublist_append_iff.mp h
  cases left with
  | nil =>
      -- Both would be at `b` or after it, and `b` is there only once.
      have hsplit' : right = [a, b] := hsplit.symm
      subst hsplit'
      have hb : b ∈ post := by
        cases hright with
        | cons _ hpost => exact hpost.subset (by simp)
        | cons_cons _ hpost => exact hpost.subset (by simp)
      exact absurd hb hlate
  | cons first rest =>
      obtain rfl : a = first := (List.cons.inj hsplit).1
      exact hleft.subset (by simp)

namespace Node

/-- The rows whose message an act stores in its topic. -/
def stores (n : Node ρ ι) : NodeAct ι → List String
  | .send t outcome =>
      match n.ticks t, outcome with
      | some { rows := (id, _) :: _, sent := false }, .resolved => [id]
      | some { rows := (id, _) :: _, sent := false }, .rejected true => [id]
      | _, _ => []
  | _ => []

/-- The runs from `n₀`, with the rows whose messages they have stored, oldest first. -/
inductive Trace (prog : ι → ServiceTx ρ Unit) (n₀ : Node ρ ι) : List String → Node ρ ι → Prop where
  | start : Trace prog n₀ [] n₀
  | step {log : List String} {n n' : Node ρ ι} {act : NodeAct ι} (h : Trace prog n₀ log n)
      (hs : n.step prog act = some n') : Trace prog n₀ (log ++ n.stores act) n'

variable {prog : ι → ServiceTx ρ Unit} {rule : ι → Rule β} {n n' n₀ : Node ρ ι}
  {act : NodeAct ι} {log : List String}

theorem Trace.reach {db₀ : ServiceStore ρ} (h : Trace prog (Node.start db₀) log n) :
    Reach prog db₀ n := by
  induction h with
  | start => exact .start
  | step _ hs ih => exact ih.step hs

theorem Trace.of_run {acts : List (NodeAct ι)} (h : Trace prog n₀ log n)
    (hrun : run prog acts n = some n') : ∃ log', Trace prog n₀ log' n' := by
  induction acts generalizing n log with
  | nil =>
      obtain rfl := Option.some.inj hrun
      exact ⟨log, h⟩
  | cons act rest ih =>
      obtain ⟨n₁, hstep, hrest⟩ := Option.bind_eq_some_iff.mp hrun
      exact ih (h.step hstep) hrest

/-- Two runs in sequence are a run. -/
theorem Trace.trans {log₀ : List String} (h₀ : Trace prog n₀ log₀ n) (h : Trace prog n log n') :
    Trace prog n₀ (log₀ ++ log) n' := by
  induction h with
  | start => simpa using h₀
  | step _ hs ih =>
      rw [← List.append_assoc]
      exact ih.step hs

/-- What is stored is what the messages in the topics grow by. -/
theorem stores_cases (hs : n.step prog act = some n') :
    (n.stores act = [] ∧ n'.sent = n.sent) ∨
      ∃ t id row rest, n.ticks t = some { rows := (id, row) :: rest, sent := false } ∧
        n.stores act = [id] ∧ n'.sent = n.sent ++ [row.message] := by
  cases act with
  | business act =>
      obtain ⟨server, -, rfl⟩ := Option.map_eq_some_iff.mp hs
      exact Or.inl ⟨rfl, rfl⟩
  | startTick t scan =>
      obtain ⟨-, -, rfl⟩ := startTick_cases hs
      exact Or.inl ⟨rfl, rfl⟩
  | send t outcome =>
      have hsend : n.send t outcome = some n' := hs
      unfold send at hsend
      split at hsend
      · rename_i id row rest htick
        cases outcome with
        | resolved =>
            obtain rfl := Option.some.inj hsend
            exact Or.inr ⟨t, id, row, rest, htick, by simp [stores, htick], rfl⟩
        | rejected stored =>
            obtain rfl := Option.some.inj hsend
            cases stored with
            | true => exact Or.inr ⟨t, id, row, rest, htick, by simp [stores, htick], rfl⟩
            | false => exact Or.inl ⟨by simp [stores, htick], rfl⟩
      · simp at hsend
  | mark t now outcome =>
      obtain ⟨_, _, _, -, -, hsent, -⟩ := mark_cases hs
      exact Or.inl ⟨rfl, hsent⟩
  | kill t =>
      obtain rfl := kill_cases hs
      exact Or.inl ⟨rfl, rfl⟩

/-! ### What a step does to the outbox -/

/-- A row stays, and stays what it is, but that it may be marked. -/
theorem outbox_kept (hlaw : OutboxLaw rule n) (hs : n.step prog act = some n') {id : String}
    {row : OutboxRow} (hrow : outboxAt n.server.db id = some row) :
    ∃ row', outboxAt n'.server.db id = some row' ∧ row'.createdAt = row.createdAt ∧
      row'.message = row.message := by
  rcases server_cases hs with ⟨act, -, hserver⟩ |
    ⟨-, hserver | ⟨-, marked, -, -, now, -, -, hserver⟩⟩
  · by_cases hcommit : ∃ i, act = .commit i
    · obtain ⟨i, rfl⟩ := hcommit
      exact ⟨row, (outbox_commit hlaw.disciplined hserver).1 id row hrow, rfl, rfl⟩
    · have hdb : n'.server.db = n.server.db := Server.step_db hserver fun i hi => hcommit ⟨i, hi⟩
      exact ⟨row, by rw [hdb]; exact hrow, rfl, rfl⟩
  · exact ⟨row, by rw [hserver]; exact hrow, rfl, rfl⟩
  · refine ⟨if id = marked then { row with publishedAt := some now } else row, ?_, ?_, ?_⟩
    · rw [hserver]
      show outboxAt (markOutboxPublished n.server.db marked now) id = _
      rw [outboxAt_markOutboxPublished, hrow]
      rfl
    · split <;> rfl
    · split <;> rfl

/-- A row is marked only by a tick that has sent it. -/
theorem outbox_marked (hlaw : OutboxLaw rule n) (hs : n.step prog act = some n') {id : String}
    {row' : OutboxRow} (hrow' : outboxAt n'.server.db id = some row')
    (hpublished : row'.publishedAt.isSome) :
    (∃ row, outboxAt n.server.db id = some row ∧ row.publishedAt.isSome) ∨
      ∃ t row rest, n.ticks t = some { rows := (id, row) :: rest, sent := true } := by
  rcases server_cases hs with ⟨act, -, hserver⟩ |
    ⟨-, hserver | ⟨t, marked, sentRow, rest, now, htick, -, hserver⟩⟩
  · by_cases hcommit : ∃ i, act = .commit i
    · obtain ⟨i, rfl⟩ := hcommit
      rcases (outbox_commit hlaw.disciplined hserver).2 id row' hrow' with hold | hfresh
      · exact Or.inl ⟨row', hold, hpublished⟩
      · rw [hfresh.unpublished] at hpublished
        simp at hpublished
    · have hdb : n'.server.db = n.server.db := Server.step_db hserver fun i hi => hcommit ⟨i, hi⟩
      exact Or.inl ⟨row', hdb ▸ hrow', hpublished⟩
  · exact Or.inl ⟨row', hserver ▸ hrow', hpublished⟩
  · rw [hserver] at hrow'
    have hrow'' : outboxAt (markOutboxPublished n.server.db marked now) id = some row' := hrow'
    rw [outboxAt_markOutboxPublished] at hrow''
    obtain ⟨row, hrow, heq⟩ := Option.map_eq_some_iff.mp hrow''
    by_cases hid : id = marked
    · subst hid
      exact Or.inr ⟨t, sentRow, rest, htick⟩
    · rw [if_neg hid] at heq
      exact Or.inl ⟨row, hrow, heq ▸ hpublished⟩

/-- The ticks after a step: an old one, a new batch, or an old one that has sent or marked its
first row. -/
theorem tick_cases (hs : n.step prog act = some n') {t : ℕ} {tick' : Tick}
    (htick' : n'.ticks t = some tick') :
    n.ticks t = some tick' ∨
      (∃ scan, Scans n.server.db scan ∧
        tick' = { rows := getPendingOutboxBatch n.server.db scan, sent := false } ∧
        n'.server = n.server) ∨
      (∃ id row rest, n.ticks t = some { rows := (id, row) :: rest, sent := false } ∧
        tick' = { rows := (id, row) :: rest, sent := true } ∧ n.stores act = [id]) ∨
      ∃ entry rest, n.ticks t = some { rows := entry :: rest, sent := true } ∧
        tick' = { rows := rest, sent := false } := by
  have hupdate : ∀ {t' : ℕ} {new : Option Tick}, n'.ticks = Function.update n.ticks t' new →
      (t = t' ∧ new = some tick') ∨ n.ticks t = some tick' := by
    intro t' new hticks
    rw [hticks] at htick'
    by_cases ht : t = t'
    · subst ht
      exact Or.inl ⟨rfl, by simpa using htick'⟩
    · exact Or.inr (by simpa [Function.update_of_ne ht] using htick')
  cases act with
  | business act =>
      obtain ⟨server, -, rfl⟩ := Option.map_eq_some_iff.mp hs
      exact Or.inl htick'
  | startTick t' scan =>
      obtain ⟨-, hscan, rfl⟩ := startTick_cases hs
      rcases hupdate rfl with ⟨rfl, hnew⟩ | hold
      · exact Or.inr (Or.inl ⟨scan, hscan, (Option.some.inj hnew).symm, rfl⟩)
      · exact Or.inl hold
  | send t' outcome =>
      have hsend : n.send t' outcome = some n' := hs
      unfold send at hsend
      split at hsend
      · rename_i id row rest hold
        cases outcome with
        | resolved =>
            obtain rfl := Option.some.inj hsend
            rcases hupdate rfl with ⟨rfl, hnew⟩ | hsame
            · exact Or.inr (Or.inr (Or.inl ⟨id, row, rest, hold, (Option.some.inj hnew).symm,
                by simp [stores, hold]⟩))
            · exact Or.inl hsame
        | rejected stored =>
            obtain rfl := Option.some.inj hsend
            rcases hupdate rfl with ⟨rfl, hnew⟩ | hsame
            · simp at hnew
            · exact Or.inl hsame
      · simp at hsend
  | mark t' now outcome =>
      obtain ⟨id, row, rest, hold, -, -, -, hticks | hticks⟩ := mark_cases hs
      · rcases hupdate hticks with ⟨rfl, hnew⟩ | hsame
        · exact Or.inr (Or.inr (Or.inr ⟨(id, row), rest, hold, (Option.some.inj hnew).symm⟩))
        · exact Or.inl hsame
      · rcases hupdate hticks with ⟨-, hnew⟩ | hsame
        · simp at hnew
        · exact Or.inl hsame
  | kill t' =>
      obtain rfl := kill_cases hs
      rcases hupdate rfl with ⟨-, hnew⟩ | hsame
      · simp at hnew
      · exact Or.inl hsame

end Node

/-! ### The rows that were sent -/

/-- The run has published the rows of its log, in this order. -/
structure Published (log : List String) (n : Node ρ ι) : Prop where
  /-- The log has a row for every message in the topics. -/
  sent : List.Forall₂ (fun id message => Backed n.server.db id message) log n.sent
  /-- A row that is marked is in the log. -/
  marked : ∀ id row, outboxAt n.server.db id = some row → row.publishedAt.isSome → id ∈ log
  /-- A tick marks what is in the log. -/
  head : ∀ t tick, n.ticks t = some tick → tick.sent = true → ∀ entry ∈ tick.rows.head?,
    entry.1 ∈ log

namespace Published

variable {prog : ι → ServiceTx ρ Unit} {rule : ι → Rule β} {n n' : Node ρ ι} {act : NodeAct ι}
  {log : List String}

theorem start {db₀ : ServiceStore ρ} (hempty : ∀ id, outboxAt db₀ id = none) :
    Published [] (Node.start db₀ : Node ρ ι) where
  sent := .nil
  marked id row hrow := by
    have hrow' : outboxAt db₀ id = some row := hrow
    simp [hempty] at hrow'
  head t tick htick := by simp [Node.start] at htick

/-- What is in the log has a row. -/
theorem mem (h : Published log n) {id : String} (hid : id ∈ log) :
    ∃ message, Backed n.server.db id message := by
  obtain ⟨i, hi, rfl⟩ := List.getElem_of_mem hid
  have hi' : i < n.sent.length := h.sent.length_eq ▸ hi
  exact ⟨n.sent[i], h.sent.get hi hi'⟩

theorem step (h : Published log n) (hlaw : OutboxLaw rule n) (hs : n.step prog act = some n') :
    Published (log ++ n.stores act) n' := by
  have hkeep : ∀ id message, Backed n.server.db id message → Backed n'.server.db id message := by
    intro id message ⟨row, hrow, hmessage⟩
    obtain ⟨row', hrow', -, hmessage'⟩ := Node.outbox_kept hlaw hs hrow
    exact ⟨row', hrow', hmessage'.trans hmessage⟩
  have hold : List.Forall₂ (fun id message => Backed n'.server.db id message) log n.sent :=
    h.sent.imp fun id message hback => hkeep id message hback
  refine ⟨?_, fun id row' hrow' hpublished => ?_, fun t tick' htick' hsent entry hentry => ?_⟩
  · rcases Node.stores_cases hs with ⟨hnone, hsame⟩ | ⟨t, id, row, rest, htick, hone, hmore⟩
    · rw [hnone, hsame, List.append_nil]
      exact hold
    · rw [hone, hmore]
      have hback := hlaw.batch t _ htick (id, row) (List.mem_cons_self ..)
      exact List.rel_append hold (.cons (hkeep id row.message hback) .nil)
  · refine List.mem_append_left _ ?_
    rcases Node.outbox_marked hlaw hs hrow' hpublished with ⟨row, hrow, hmarked⟩ | ⟨t, row, rest, htick⟩
    · exact h.marked id row hrow hmarked
    · exact h.head t _ htick rfl (id, row) (by simp)
  · rcases Node.tick_cases hs htick' with hsame | ⟨scan, -, rfl, -⟩ | ⟨id, row, rest, -, rfl, hone⟩ |
      ⟨_, rest, -, rfl⟩
    · exact List.mem_append_left _ (h.head t tick' hsame hsent entry hentry)
    · simp at hsent
    · have hfirst : (id, row) = entry := by simpa using hentry
      rw [hone, ← hfirst]
      simp
    · simp at hsent

theorem of_trace (hobeys : ∀ job, (prog job).Obeys (rule job).discipline .none)
    {db₀ : ServiceStore ρ} (hempty : ∀ id, outboxAt db₀ id = none)
    (h : Node.Trace prog (Node.start db₀) log n) : OutboxLaw rule n ∧ Published log n := by
  induction h with
  | start => exact ⟨.start hempty, .start hempty⟩
  | step _ hs ih => exact ⟨ih.1.step hobeys hs, ih.2.step ih.1 hs⟩

end Published

/-! ### The order of two rows -/

/-- Of two rows, the first is published first, whatever the ticks that are under way do. -/
structure Precedes (id₁ id₂ : String) (log : List String) (n : Node ρ ι) : Prop where
  /-- A tick that has the second row has the first one before it, if it is still to be sent. -/
  batch : ∀ t tick, n.ticks t = some tick → id₁ ∈ log ∨
    ComesFirst id₁ id₂ (tick.rows.map Prod.fst)
  log : ComesFirst id₁ id₂ log

/-- In a batch, rows come in the order of their creation; and earlier rows are in it. -/
theorem comesFirst_batch {db : ServiceStore ρ} {scan : List String} {id₁ id₂ : String}
    {row₁ : OutboxRow} (hrow₁ : outboxAt db id₁ = some row₁) (hpending : row₁.publishedAt = none)
    (hscan : Scans db scan)
    (hlater : ∀ row₂, outboxAt db id₂ = some row₂ → row₁.createdAt < row₂.createdAt) :
    ComesFirst id₁ id₂ ((getPendingOutboxBatch db scan).map Prod.fst) := by
  intro pre post hsplit
  obtain ⟨before, after, hbatch, rfl, hafter⟩ := List.map_eq_append_iff.mp hsplit
  obtain ⟨entry, rest, rfl, hid₂, rfl⟩ := List.map_eq_cons_iff.mp hafter
  obtain ⟨id, row₂⟩ := entry
  simp only at hid₂
  subst hid₂
  have hmem : (id, row₂) ∈ getPendingOutboxBatch db scan := by
    rw [hbatch]
    simp
  have hlt := hlater row₂ (mem_getPendingOutboxBatch hmem).1
  let sorted := (pendingOutbox db scan).insertionSort fun a b => a.2.createdAt ≤ b.2.createdAt
  have hsorted : sorted.Pairwise fun a b => a.2.createdAt ≤ b.2.createdAt :=
    List.pairwise_insertionSort _ _
  have hwhole : sorted = before ++ (id, row₂) :: (rest ++ sorted.drop 25) := by
    have htake : sorted.take 25 = before ++ (id, row₂) :: rest := hbatch
    have hparts := List.take_append_drop 25 sorted
    rw [htake] at hparts
    simpa using hparts.symm
  have hfirst : (id₁, row₁) ∈ sorted :=
    (List.mem_insertionSort _).mpr (mem_pendingOutbox hscan hrow₁ hpending)
  rw [hwhole] at hsorted hfirst
  obtain ⟨-, htail, -⟩ := List.pairwise_append.mp hsorted
  rcases List.mem_append.mp hfirst with hbefore | hthen
  · exact List.mem_map_of_mem hbefore
  · exfalso
    rcases List.mem_cons.mp hthen with heq | hlast
    · obtain ⟨-, rfl⟩ := Prod.mk.inj heq
      omega
    · have hle := (List.pairwise_cons.mp htail).1 _ hlast
      simp only at hle
      omega

namespace Precedes

variable {prog : ι → ServiceTx ρ Unit} {rule : ι → Rule β} {n n' : Node ρ ι} {act : NodeAct ι}
  {log : List String} {id₁ id₂ : String}

/-- Nothing is known of the second row yet. -/
theorem of_absent (hlaw : OutboxLaw rule n) (hpublished : Published log n)
    (hnone : outboxAt n.server.db id₂ = none) : Precedes id₁ id₂ log n where
  batch t tick htick := by
    refine Or.inr (comesFirst_of_not_mem fun hmem => ?_)
    obtain ⟨entry, hentry, rfl⟩ := List.mem_map.mp hmem
    obtain ⟨row, hrow, -⟩ := hlaw.batch t tick htick entry hentry
    rw [hnone] at hrow
    simp at hrow
  log := by
    refine comesFirst_of_not_mem fun hmem => ?_
    obtain ⟨message, row, hrow, -⟩ := hpublished.mem hmem
    rw [hnone] at hrow
    simp at hrow

theorem step (h : Precedes id₁ id₂ log n) (hpublished : Published log n)
    (hs : n.step prog act = some n') {row₁ : OutboxRow}
    (hrow₁ : outboxAt n.server.db id₁ = some row₁)
    (hlater : ∀ row₂, outboxAt n.server.db id₂ = some row₂ → row₁.createdAt < row₂.createdAt) :
    Precedes id₁ id₂ (log ++ n.stores act) n' where
  batch t tick' htick' := by
    rcases Node.tick_cases hs htick' with hsame | ⟨scan, hscan, rfl, -⟩ |
      ⟨sentId, row, rest, hold, rfl, -⟩ | ⟨entry, rest, hold, rfl⟩
    · exact (h.batch t tick' hsame).imp (List.mem_append_left _) id
    · cases hpending : row₁.publishedAt with
      | none => exact Or.inr (comesFirst_batch hrow₁ hpending hscan hlater)
      | some now =>
          have hmarked := hpublished.marked id₁ row₁ hrow₁ (by rw [hpending]; rfl)
          exact Or.inl (List.mem_append_left _ hmarked)
    · exact (h.batch t _ hold).imp (List.mem_append_left _) id
    · -- The row that is done is in the log, should it be the first one.
      rcases h.batch t _ hold with hlog | hfirst
      · exact Or.inl (List.mem_append_left _ hlog)
      · by_cases hentry : entry.1 = id₁
        · have hhead := hpublished.head t _ hold rfl entry (by simp)
          exact Or.inl (List.mem_append_left _ (hentry ▸ hhead))
        · refine Or.inr fun pre post hsplit => ?_
          have hmem := hfirst (entry.1 :: pre) post (by simp [hsplit])
          rcases List.mem_cons.mp hmem with heq | hpre
          · exact absurd heq.symm hentry
          · exact hpre
  log := by
    rcases Node.stores_cases hs with ⟨hnone, -⟩ | ⟨t, id, row, rest, htick, hone, -⟩
    · rw [hnone, List.append_nil]
      exact h.log
    · rw [hone]
      refine h.log.append fun hid => ?_
      -- The second row is sent as the first of its batch: nothing is left to be sent before it.
      rcases h.batch t _ htick with hlog | hfirst
      · exact hlog
      · have hmem := hfirst [] (rest.map Prod.fst) (by simp [hid])
        simp at hmem

/-- **The first row stays first** in every run that goes on from where it alone is committed. -/
theorem of_trace (hobeys : ∀ job, (prog job).Obeys (rule job).discipline .none)
    {log₀ : List String} {n₀ : Node ρ ι} (hlaw : OutboxLaw rule n₀)
    (hpublished : Published log₀ n₀) (h : Node.Trace prog n₀ log n) {row₁ row₂ : OutboxRow}
    (hrow₁ : outboxAt n₀.server.db id₁ = some row₁) (hnone : outboxAt n₀.server.db id₂ = none)
    (hrow₂ : outboxAt n.server.db id₂ = some row₂) (hlt : row₁.createdAt < row₂.createdAt) :
    ComesFirst id₁ id₂ (log₀ ++ log) := by
  have hrun : OutboxLaw rule n ∧ Published (log₀ ++ log) n ∧
      (∃ row, outboxAt n.server.db id₁ = some row ∧ row.createdAt = row₁.createdAt) ∧
      ((∀ row, outboxAt n.server.db id₂ = some row → row₁.createdAt < row.createdAt) →
        Precedes id₁ id₂ (log₀ ++ log) n) := by
    clear hrow₂
    induction h with
    | start =>
        rw [List.append_nil]
        exact ⟨hlaw, hpublished, ⟨row₁, hrow₁, rfl⟩, fun _ => of_absent hlaw hpublished hnone⟩
    | @step log n n' act _ hs ih =>
        obtain ⟨hlaw', hpublished', ⟨row, hrow, hcreated⟩, hprecedes⟩ := ih
        obtain ⟨row', hrow', hcreated', -⟩ := Node.outbox_kept hlaw' hs hrow
        rw [← List.append_assoc]
        refine ⟨hlaw'.step hobeys hs, hpublished'.step hlaw' hs,
          ⟨row', hrow', hcreated'.trans hcreated⟩, fun hlater => ?_⟩
        have hbefore : ∀ row₂, outboxAt n.server.db id₂ = some row₂ →
            row₁.createdAt < row₂.createdAt := by
          intro row₂ hrow₂
          obtain ⟨row₂', hrow₂', hsame, -⟩ := Node.outbox_kept hlaw' hs hrow₂
          exact hsame ▸ hlater row₂' hrow₂'
        refine (hprecedes hbefore).step hpublished' hs hrow fun row₂ hrow₂ => ?_
        rw [hcreated]
        exact hbefore row₂ hrow₂
  obtain ⟨-, -, -, hprecedes⟩ := hrun
  refine (hprecedes fun row hrow => ?_).log
  obtain rfl := Option.some.inj (hrow.symm.trans hrow₂)
  exact hlt

end Precedes

/-! ### The three services -/

/-- The payload names the order. -/
def NamesOrder (payload orderId : Json) : Prop := payload.get "orderId" = .ok (some orderId)

theorem partitionKey_of_names {payload orderId : Json} (h : NamesOrder payload orderId)
    (routingKey : String) : partitionKey routingKey payload = orderId.toString := by
  cases payload with
  | obj fields =>
      have hlookup : fields.lookup "orderId" = some orderId := Except.ok.inj h
      simp [partitionKey, hlookup]
  | null => simp [NamesOrder, Json.get] at h
  | bool b => simp [NamesOrder, Json.get] at h
  | num x => simp [NamesOrder, Json.get] at h
  | str text => simp [NamesOrder, Json.get] at h
  | arr items => simp [NamesOrder, Json.get] at h

/--
In every run of the service, up to `n₀` and on from there to `n`: a row that is committed
in `n₀`, when another with a later `created_at` is not, is sent before it.  The log lists
the rows that the messages in the topics were sent for, and all those that name the same
order have the same partition key.
-/
def PublishesInOrder (prog : ι → ServiceTx ρ Unit) : Prop :=
  ∀ (db₀ : ServiceStore ρ) (log₀ log : List String) (n₀ n : Node ρ ι),
    (∀ id, outboxAt db₀ id = none) → Node.Trace prog (Node.start db₀) log₀ n₀ →
    Node.Trace prog n₀ log n →
    (∀ id₁ id₂ row₁ row₂, outboxAt n₀.server.db id₁ = some row₁ →
      outboxAt n₀.server.db id₂ = none → outboxAt n.server.db id₂ = some row₂ →
      row₁.createdAt < row₂.createdAt → ComesFirst id₁ id₂ (log₀ ++ log)) ∧
    List.Forall₂ (fun id message => ∃ row, outboxAt n.server.db id = some row ∧
      message = row.message ∧ ∀ orderId, NamesOrder row.payload orderId →
        message.key = orderId.toString) (log₀ ++ log) n.sent

theorem publishesInOrder {prog : ι → ServiceTx ρ Unit} {rule : ι → Rule β}
    (hobeys : ∀ job, (prog job).Obeys (rule job).discipline .none) : PublishesInOrder prog := by
  intro db₀ log₀ log n₀ n hempty h₀ h
  obtain ⟨hlaw, hpublished⟩ := Published.of_trace hobeys hempty h₀
  obtain ⟨-, hpublished'⟩ := Published.of_trace hobeys hempty (h₀.trans h)
  refine ⟨?_, hpublished'.sent.imp ?_⟩
  · intro id₁ id₂ row₁ row₂ hrow₁ hnone hrow₂ hlt
    exact Precedes.of_trace hobeys hlaw hpublished h hrow₁ hnone hrow₂ hlt
  · intro id message ⟨row, hrow, hmessage⟩
    exact ⟨row, hrow, hmessage.symm, fun orderId hnames => by
      rw [← hmessage]
      exact partitionKey_of_names hnames row.routingKey⟩

/--
**Events are published in order.**  In each of the services, whatever its ticks do at the
same time and wherever they stop, a row that was committed first and created earlier is
sent first, however many rows are pending; and what is sent about one order is sent to one
partition.
-/
theorem publication_order [Platform] :
    PublishesInOrder Orders.Job.body ∧
    PublishesInOrder (Handler.serve Inventory.handleInventoryCommand) ∧
    PublishesInOrder (Handler.serve Payments.handlePaymentCommand) :=
  ⟨publishesInOrder Orders.obeys_body, publishesInOrder Inventory.obeys_serve,
    publishesInOrder Payments.obeys_serve⟩

end CommercePlatform

/-! ### Two payments, published in their order -/

namespace CommercePlatform.Charge

open Js Txn

attribute [local instance] Platform.plain

def ticking : List (NodeAct Delivery) :=
  pays 2 other ++ [.startTick 1 scan, .send 1 .resolved, .mark 1 5 .resolved, .send 1 .resolved]

theorem published_in_order : ∃ log₀ log n₀ n,
    Node.Trace (Handler.serve Payments.handlePaymentCommand) (Node.start ∅) log₀ n₀ ∧
    Node.Trace (Handler.serve Payments.handlePaymentCommand) n₀ log n ∧ n.sent.length = 2 ∧
    ComesFirst "8d1f4c60-52ab-4e0a-9d3c-7be1a05f6c41" "8d1f4c60-52ab-4e0a-9d3c-7be1a05f6c44"
      (log₀ ++ log) ∧
    List.Forall₂ (fun id message => ∃ row, outboxAt n.server.db id = some row ∧
      message = row.message ∧ ∀ orderId, NamesOrder row.payload orderId →
        message.key = orderId.toString) (log₀ ++ log) n.sent := by
  have hout : ((Node.run (Handler.serve Payments.handlePaymentCommand) (pays 1 first)
      (Node.start ∅)).any fun n₀ =>
        ((outboxAt n₀.server.db "8d1f4c60-52ab-4e0a-9d3c-7be1a05f6c41").any fun row =>
          row.createdAt = 1) &&
        (outboxAt n₀.server.db "8d1f4c60-52ab-4e0a-9d3c-7be1a05f6c44").isNone &&
        (Node.run (Handler.serve Payments.handlePaymentCommand) ticking n₀).any fun n =>
          n.sent.length = 2 &&
          (outboxAt n.server.db "8d1f4c60-52ab-4e0a-9d3c-7be1a05f6c44").any fun row =>
            row.createdAt = 4) = true := by
    decide +kernel
  obtain ⟨n₀, hn₀, hout⟩ := (Option.any_eq_true _ _).mp hout
  simp only [Bool.and_eq_true] at hout
  obtain ⟨⟨hfirst, hnone⟩, hout⟩ := hout
  obtain ⟨row₁, hrow₁, hcreated₁⟩ := (Option.any_eq_true _ _).mp hfirst
  obtain ⟨n, hn, hout⟩ := (Option.any_eq_true _ _).mp hout
  obtain ⟨hsent, hsecond⟩ := (Bool.and_eq_true ..).mp hout
  obtain ⟨row₂, hrow₂, hcreated₂⟩ := (Option.any_eq_true _ _).mp hsecond
  obtain ⟨log₀, h₀⟩ := Node.Trace.of_run .start hn₀
  obtain ⟨log, h⟩ := Node.Trace.of_run .start hn
  obtain ⟨hfirst, hlog⟩ := publication_order.2.2 ∅ log₀ log n₀ n (fun _ => rfl) h₀ h
  refine ⟨log₀, log, n₀, n, h₀, h, of_decide_eq_true hsent, ?_, hlog⟩
  refine hfirst _ _ row₁ row₂ hrow₁ (Option.isNone_iff_eq_none.mp hnone) hrow₂ ?_
  rw [of_decide_eq_true hcreated₁, of_decide_eq_true hcreated₂]
  omega

end CommercePlatform.Charge
