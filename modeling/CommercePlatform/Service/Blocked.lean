/-
Events that cannot be published.

A tick ends at the first row whose publication is rejected, and the next tick starts from
the oldest pending row again.  So a row that is rejected every time is not skipped: it is
reached by every tick, and nothing behind it is.  What is published in the end is what
was created before the first such row, and nothing else.
-/
import Mathlib.Data.List.TakeWhile
import CommercePlatform.Service.Publication
import CommercePlatform.Orders.Service

namespace CommercePlatform

open Js Txn

variable {β : Type} [DecidableEq β] {ρ : β → Type} {ι : Type}

/-- The committed rows of a service, and its topics. -/
structure Outlet (ρ : β → Type) where
  db : ServiceStore ρ
  sent : List KafkaMessage

def Node.outlet (n : Node ρ ι) : Outlet ρ := { db := n.server.db, sent := n.sent }

namespace Outlet

/-- The row is marked, and its message is in the topic. -/
def IsPublished (x : Outlet ρ) (id : String) : Prop :=
  ∃ row, outboxAt x.db id = some row ∧ row.publishedAt.isSome ∧ row.message ∈ x.sent

/-- The row is committed and not marked. -/
def Pending (x : Outlet ρ) (id : String) (row : OutboxRow) : Prop :=
  outboxAt x.db id = some row ∧ row.publishedAt = none

/-- The loop of `publishOutboxBatch`, if the rows of `F` are rejected and no other is. -/
def publishRows (F : String → Bool) (now : ℕ) : List (String × OutboxRow) → Outlet ρ → Outlet ρ
  | [], x => x
  | (id, row) :: rest, x =>
      if F id then x
      else publishRows F now rest
        { db := markOutboxPublished x.db id now, sent := x.sent ++ [row.message] }

/-- A whole tick, from its query to the row that is rejected or to the end of its batch. -/
def publishOutboxBatch (F : String → Bool) (now : ℕ) (scan : List String) (x : Outlet ρ) :
    Outlet ρ :=
  publishRows F now (getPendingOutboxBatch x.db scan) x

/-- One tick after the other; the `k`th finds the rows in the order of `scans k`. -/
def afterTicks (F : String → Bool) (nows : ℕ → ℕ) (scans : ℕ → List String) (x : Outlet ρ) :
    ℕ → Outlet ρ
  | 0 => x
  | k + 1 => publishOutboxBatch F (nows k) (scans k) (afterTicks F nows scans x k)

end Outlet

/-! ### Ticks as runs of the service -/

namespace Node

variable {prog : ι → ServiceTx ρ Unit} {F : String → Bool}

/-- The loop is a run of its tick. -/
theorem exists_run_publishRows (prog : ι → ServiceTx ρ Unit) (now t : ℕ)
    (rows : List (String × OutboxRow)) {n : Node ρ ι}
    (htick : n.ticks t = some { rows := rows, sent := false })
    (hfree : ∀ id, n.server.locks (.outbox id) = none) :
    ∃ n' : Node ρ ι, Relation.ReflTransGen (fun n n' => ∃ act, n.step prog act = some n') n n' ∧
      n'.outlet = Outlet.publishRows F now rows n.outlet ∧
      n'.ticks = Function.update n.ticks t none ∧
      ∀ id, n'.server.locks (.outbox id) = none := by
  induction rows generalizing n with
  | nil =>
      have hkill : n.step prog (.kill t) = some { n with ticks := Function.update n.ticks t none } := by
        show n.kill t = _
        simp [kill, htick]
      exact ⟨_, .single ⟨_, hkill⟩, rfl, rfl, hfree⟩
  | cons entry rest ih =>
      obtain ⟨id, row⟩ := entry
      by_cases hF : F id
      · have hsend : n.step prog (.send t (.rejected false)) =
            some { n with ticks := Function.update n.ticks t none } := by
          show n.send t (.rejected false) = _
          simp [send, htick]
        refine ⟨_, .single ⟨_, hsend⟩, ?_, rfl, hfree⟩
        simp [Outlet.publishRows, hF, outlet]
      · let sent : Node ρ ι := { n with
          ticks := Function.update n.ticks t (some { rows := (id, row) :: rest, sent := true })
          sent := n.sent ++ [row.message] }
        let marked : Node ρ ι := { sent with
          server := { n.server with db := markOutboxPublished n.server.db id now }
          ticks := Function.update sent.ticks t (some { rows := rest, sent := false }) }
        have hsend : n.step prog (.send t .resolved) = some sent := by
          show n.send t .resolved = _
          simp [send, htick, sent]
        have hmark : sent.step prog (.mark t now .resolved) = some marked := by
          show sent.mark t now .resolved = _
          simp [mark, hfree id, sent, marked]
        obtain ⟨n', hrun, houtlet, hticks, hfree'⟩ := ih (n := marked) (by simp [marked]) hfree
        refine ⟨n', .head ⟨_, hsend⟩ (.head ⟨_, hmark⟩ hrun), ?_, ?_, hfree'⟩
        · rw [houtlet]
          simp [Outlet.publishRows, hF, outlet, marked, sent]
        · rw [hticks]
          simp [marked, sent, Function.update_idem]

/-- Ticks one after the other are a run of the service. -/
theorem exists_run_afterTicks (prog : ι → ServiceTx ρ Unit) (nows : ℕ → ℕ)
    (scans : ℕ → List String) {n : Node ρ ι} (hidle : ∀ t, n.ticks t = none)
    (hfree : ∀ id, n.server.locks (.outbox id) = none)
    (hscans : ∀ k, Scans (Outlet.afterTicks F nows scans n.outlet k).db (scans k)) (k : ℕ) :
    ∃ n' : Node ρ ι, Relation.ReflTransGen (fun n n' => ∃ act, n.step prog act = some n') n n' ∧
      n'.outlet = Outlet.afterTicks F nows scans n.outlet k ∧ (∀ t, n'.ticks t = none) ∧
      ∀ id, n'.server.locks (.outbox id) = none := by
  induction k with
  | zero => exact ⟨n, .refl, rfl, hidle, hfree⟩
  | succ k ih =>
      obtain ⟨n₁, hrun, houtlet, hidle₁, hfree₁⟩ := ih
      have hdb : n₁.server.db = (Outlet.afterTicks F nows scans n.outlet k).db :=
        congrArg Outlet.db houtlet
      let ticking : Node ρ ι := { n₁ with
        ticks := Function.update n₁.ticks 0
          (some { rows := getPendingOutboxBatch n₁.server.db (scans k), sent := false }) }
      have hstart : n₁.step prog (.startTick 0 (scans k)) = some ticking := by
        show n₁.startTick 0 (scans k) = _
        simp [startTick, hidle₁ 0, hdb, hscans k, ticking]
      obtain ⟨n₂, hloop, houtlet₂, hticks₂, hfree₂⟩ :=
        exists_run_publishRows (F := F) prog (nows k) 0 _ (n := ticking) (by simp [ticking]; rfl) hfree₁
      refine ⟨n₂, (hrun.tail ⟨_, hstart⟩).trans hloop, ?_, fun t => ?_, hfree₂⟩
      · rw [houtlet₂, hdb]
        show Outlet.publishRows F (nows k) _ n₁.outlet = _
        rw [houtlet]
        rfl
      · rw [hticks₂]
        by_cases ht : t = 0
        · subst ht
          simp
        · simp [ticking, Function.update_of_ne ht, hidle₁ t]

end Node

/-! ### What a tick publishes -/

namespace Outlet

variable {F : String → Bool} {now : ℕ} {x : Outlet ρ} {id : String} {row : OutboxRow}

/-- The rows before the first one that is rejected. -/
def served (F : String → Bool) (rows : List (String × OutboxRow)) : List (String × OutboxRow) :=
  rows.takeWhile fun entry => !F entry.1

theorem publishRows_sent (rows : List (String × OutboxRow)) (x : Outlet ρ) :
    (publishRows F now rows x).sent =
      x.sent ++ (served F rows).map fun entry => entry.2.message := by
  induction rows generalizing x with
  | nil => simp [publishRows, served]
  | cons entry rest ih =>
      obtain ⟨id, row⟩ := entry
      by_cases hF : F id
      · simp [publishRows, served, hF]
      · have hcons : served F ((id, row) :: rest) = (id, row) :: served F rest := by
          simp [served, hF]
        simp only [publishRows, if_neg hF, hcons, ih]
        simp

theorem outboxAt_publishRows (rows : List (String × OutboxRow)) (x : Outlet ρ) (id : String) :
    outboxAt (publishRows F now rows x).db id =
      (outboxAt x.db id).map fun row =>
        if id ∈ (served F rows).map Prod.fst then { row with publishedAt := some now }
        else row := by
  induction rows generalizing x with
  | nil => simp [publishRows, served]
  | cons entry rest ih =>
      obtain ⟨id', row'⟩ := entry
      by_cases hF : F id'
      · simp [publishRows, served, hF]
      · have hcons : served F ((id', row') :: rest) = (id', row') :: served F rest := by
          simp [served, hF]
        simp only [publishRows, if_neg hF, hcons, ih, outboxAt_markOutboxPublished, Option.map_map]
        congr 1
        funext row
        by_cases hid : id = id'
        · simp [hid]
        · simp only [Function.comp, if_neg hid]
          exact if_congr (by simp [hid]) rfl rfl

theorem keys_publishRows (rows : List (String × OutboxRow)) (x : Outlet ρ) (k : ServiceKey β) :
    k ∈ (publishRows F now rows x).db ↔ k ∈ x.db := by
  induction rows generalizing x with
  | nil => exact Iff.rfl
  | cons entry rest ih =>
      obtain ⟨id, row⟩ := entry
      by_cases hF : F id
      · simp [publishRows, hF]
      · simp only [publishRows, if_neg hF, ih]
        exact mem_markOutboxPublished

/-- What a tick leaves pending was pending. -/
theorem Pending.of_tick {scan : List String}
    (h : (publishOutboxBatch F now scan x).Pending id row) :
    x.Pending id row ∧ id ∉ (served F (getPendingOutboxBatch x.db scan)).map Prod.fst := by
  obtain ⟨hrow, hnone⟩ := h
  rw [publishOutboxBatch, outboxAt_publishRows] at hrow
  obtain ⟨old, hold, heq⟩ := Option.map_eq_some_iff.mp hrow
  by_cases hserved : id ∈ (served F (getPendingOutboxBatch x.db scan)).map Prod.fst
  · rw [if_pos hserved] at heq
    rw [← heq] at hnone
    simp at hnone
  · rw [if_neg hserved] at heq
    subst heq
    exact ⟨⟨hold, hnone⟩, hserved⟩

/-- What it does not serve stays pending. -/
theorem Pending.tick {scan : List String} (h : x.Pending id row)
    (hserved : id ∉ (served F (getPendingOutboxBatch x.db scan)).map Prod.fst) :
    (publishOutboxBatch F now scan x).Pending id row := by
  refine ⟨?_, h.2⟩
  rw [publishOutboxBatch, outboxAt_publishRows, h.1, Option.map_some, if_neg hserved]

/-- What it serves is published. -/
theorem Pending.served {scan : List String} (h : x.Pending id row)
    (hserved : id ∈ (served F (getPendingOutboxBatch x.db scan)).map Prod.fst) :
    (publishOutboxBatch F now scan x).IsPublished id := by
  obtain ⟨entry, hentry, rfl⟩ := List.mem_map.mp hserved
  have hrow := (mem_getPendingOutboxBatch ((List.takeWhile_sublist _).subset hentry)).1
  obtain heq : entry.2 = row := Option.some.inj (hrow.symm.trans h.1)
  refine ⟨{ row with publishedAt := some now }, ?_, rfl, ?_⟩
  · rw [publishOutboxBatch, outboxAt_publishRows, h.1, Option.map_some, if_pos hserved]
  · rw [publishOutboxBatch, publishRows_sent]
    refine List.mem_append_right _ (List.mem_map.mpr ⟨entry, hentry, ?_⟩)
    rw [heq]
    rfl

theorem IsPublished.tick {scan : List String} (h : x.IsPublished id) :
    (publishOutboxBatch F now scan x).IsPublished id := by
  obtain ⟨row, hrow, hmarked, hsent⟩ := h
  have hserved : id ∉ (Outlet.served F (getPendingOutboxBatch x.db scan)).map Prod.fst := by
    intro hmem
    obtain ⟨entry, hentry, rfl⟩ := List.mem_map.mp hmem
    obtain ⟨hold, hnone⟩ :=
      mem_getPendingOutboxBatch ((List.takeWhile_sublist _).subset hentry)
    obtain heq : entry.2 = row := Option.some.inj (hold.symm.trans hrow)
    rw [heq] at hnone
    rw [hnone] at hmarked
    simp at hmarked
  refine ⟨row, ?_, hmarked, ?_⟩
  · rw [publishOutboxBatch, outboxAt_publishRows, hrow, Option.map_some, if_neg hserved]
  · rw [publishOutboxBatch, publishRows_sent]
    exact List.mem_append_left _ hsent

theorem scans_afterTicks {nows : ℕ → ℕ} {scans : ℕ → List String} {scan : List String} (k : ℕ) :
    Scans (afterTicks F nows scans x k).db scan ↔ Scans x.db scan := by
  induction k with
  | zero => exact Iff.rfl
  | succ k ih =>
      rw [← ih]
      unfold Scans
      simp only [Finmap.mem_keys, afterTicks, publishOutboxBatch, keys_publishRows]

/-! ### Nothing rejected before a row -/

/-- No row that is rejected is as old as this one. -/
def Clear (F : String → Bool) (x : Outlet ρ) (row : OutboxRow) : Prop :=
  ∀ id' row', F id' → x.Pending id' row' → row.createdAt < row'.createdAt

theorem Clear.tick {scan : List String} (h : Clear F x row) :
    Clear F (publishOutboxBatch F now scan x) row :=
  fun id' row' hF hpending => h id' row' hF hpending.of_tick.1

open Classical in
/-- The rows that are pending and not younger than this one. -/
noncomputable def ahead (x : Outlet ρ) (row : OutboxRow) : Finset (ServiceKey β) :=
  x.db.keys.filter fun k =>
    ∃ id' row', k = .outbox id' ∧ x.Pending id' row' ∧ row'.createdAt ≤ row.createdAt

open Classical in
theorem mem_ahead {k : ServiceKey β} :
    k ∈ x.ahead row ↔
      ∃ id' row', k = .outbox id' ∧ x.Pending id' row' ∧ row'.createdAt ≤ row.createdAt := by
  unfold ahead
  rw [Finset.mem_filter, and_iff_right_iff_imp]
  rintro ⟨id', row', rfl, hpending, -⟩
  exact Finmap.mem_keys.mpr (Finmap.mem_iff.mpr ⟨row', hpending.1⟩)

/-- Every tick serves some row that is not younger. -/
theorem exists_served {scan : List String} (h : x.Pending id row) (hclear : Clear F x row)
    (hscan : Scans x.db scan) :
    ∃ entry ∈ served F (getPendingOutboxBatch x.db scan),
      entry.2.createdAt ≤ row.createdAt := by
  let sorted := (pendingOutbox x.db scan).insertionSort fun a b => a.2.createdAt ≤ b.2.createdAt
  have hsorted : sorted.Pairwise fun a b => a.2.createdAt ≤ b.2.createdAt :=
    List.pairwise_insertionSort _ _
  have hmem : (id, row) ∈ sorted :=
    (List.mem_insertionSort _).mpr (mem_pendingOutbox hscan h.1 h.2)
  have hbatch : getPendingOutboxBatch x.db scan = sorted.take 25 := rfl
  cases hcons : sorted with
  | nil => simp [hcons] at hmem
  | cons oldest rest =>
      rw [hcons] at hsorted hmem
      have hle : oldest.2.createdAt ≤ row.createdAt := by
        rcases List.mem_cons.mp hmem with rfl | hrest
        · exact le_refl _
        · exact (List.pairwise_cons.mp hsorted).1 _ hrest
      have hmem' : (oldest.1, oldest.2) ∈ getPendingOutboxBatch x.db scan := by
        simp [hbatch, hcons]
      have hpending := mem_getPendingOutboxBatch hmem'
      have haccepted : F oldest.1 = false := by
        by_contra hrejected
        have hlt := hclear oldest.1 oldest.2 (by simpa using hrejected) hpending
        omega
      refine ⟨oldest, ?_, hle⟩
      simp [served, hbatch, hcons, haccepted]

/-- So it brings each row nearer to the head of the batch, or publishes it. -/
theorem Pending.step {scan : List String} (now : ℕ) (h : x.Pending id row) (hclear : Clear F x row)
    (hscan : Scans x.db scan) :
    (publishOutboxBatch F now scan x).IsPublished id ∨
      ((publishOutboxBatch F now scan x).Pending id row ∧
        ((publishOutboxBatch F now scan x).ahead row).card < (x.ahead row).card) := by
  by_cases hserved : id ∈ (Outlet.served F (getPendingOutboxBatch x.db scan)).map Prod.fst
  · exact Or.inl (h.served hserved)
  · refine Or.inr ⟨h.tick hserved, Finset.card_lt_card (Finset.ssubset_iff_subset_ne.mpr ⟨?_, ?_⟩)⟩
    · intro k hk
      obtain ⟨id', row', rfl, hpending, hle⟩ := mem_ahead.mp hk
      exact mem_ahead.mpr ⟨id', row', rfl, hpending.of_tick.1, hle⟩
    · intro heq
      obtain ⟨entry, hentry, hle⟩ := exists_served h hclear hscan
      have hold := mem_getPendingOutboxBatch ((List.takeWhile_sublist _).subset hentry)
      have hmem : ServiceKey.outbox entry.1 ∈ x.ahead row :=
        mem_ahead.mpr ⟨entry.1, entry.2, rfl, hold, hle⟩
      rw [← heq] at hmem
      obtain ⟨id', row', hid, hpending, -⟩ := mem_ahead.mp hmem
      obtain rfl : entry.1 = id' := by simpa using hid
      exact hpending.of_tick.2 (List.mem_map_of_mem hentry)

theorem Pending.run {nows : ℕ → ℕ} {scans : ℕ → List String} (h : x.Pending id row)
    (hclear : Clear F x row) (hscans : ∀ k, Scans (afterTicks F nows scans x k).db (scans k))
    (k : ℕ) :
    (afterTicks F nows scans x k).IsPublished id ∨
      ((afterTicks F nows scans x k).Pending id row ∧ Clear F (afterTicks F nows scans x k) row ∧
        ((afterTicks F nows scans x k).ahead row).card + k ≤ (x.ahead row).card) := by
  induction k with
  | zero => exact Or.inr ⟨h, hclear, le_refl _⟩
  | succ k ih =>
      rcases ih with hpublished | ⟨hpending, hclear', hcard⟩
      · exact Or.inl hpublished.tick
      · rcases hpending.step (nows k) hclear' (hscans k) with hpublished | ⟨hpending', hlt⟩
        · exact Or.inl hpublished
        · refine Or.inr ⟨hpending', hclear'.tick, ?_⟩
          show ((publishOutboxBatch F (nows k) (scans k) _).ahead row).card + (k + 1) ≤ _
          omega

/-- **As many ticks as there are rows ahead publish the row.** -/
theorem Pending.isPublished {nows : ℕ → ℕ} {scans : ℕ → List String} (h : x.Pending id row)
    (hclear : Clear F x row) (hscans : ∀ k, Scans (afterTicks F nows scans x k).db (scans k)) :
    (afterTicks F nows scans x (x.ahead row).card).IsPublished id := by
  rcases h.run hclear hscans (x.ahead row).card with hpublished | ⟨hpending, -, hcard⟩
  · exact hpublished
  · exfalso
    have hpos := Finset.card_pos.mpr ⟨_, mem_ahead.mpr ⟨id, row, rfl, hpending, le_refl _⟩⟩
    omega

/-! ### A rejected row before a row -/

theorem not_served_of_rejected {scan : List String} (hF : F id) :
    id ∉ (served F (getPendingOutboxBatch x.db scan)).map Prod.fst := by
  intro hmem
  obtain ⟨entry, hentry, rfl⟩ := List.mem_map.mp hmem
  have haccepted := List.mem_takeWhile_imp hentry
  simp [hF] at haccepted

/-- What comes after a rejected row is not served. -/
theorem not_served_of_comesFirst {scan : List String} {rejected : String} (hF : F rejected)
    (hfirst : ComesFirst rejected id ((getPendingOutboxBatch x.db scan).map Prod.fst)) :
    id ∉ (served F (getPendingOutboxBatch x.db scan)).map Prod.fst := by
  intro hmem
  obtain ⟨pre, post, hsplit⟩ := List.append_of_mem hmem
  have hparts : (getPendingOutboxBatch x.db scan).map Prod.fst =
      pre ++ id :: (post ++ ((getPendingOutboxBatch x.db scan).dropWhile
        fun entry => !F entry.1).map Prod.fst) := by
    conv_lhs => rw [← List.takeWhile_append_dropWhile (p := fun entry => !F entry.1)
      (l := getPendingOutboxBatch x.db scan)]
    rw [List.map_append]
    show (served F _).map Prod.fst ++ _ = _
    rw [hsplit]
    simp
  have hserved : rejected ∈ (served F (getPendingOutboxBatch x.db scan)).map Prod.fst := by
    rw [hsplit]
    exact List.mem_append_left _ (hfirst pre _ hparts)
  exact not_served_of_rejected hF hserved

/-- A row that every batch has behind a rejected one is never served. -/
theorem Pending.blocked (nows : ℕ → ℕ) (scans : ℕ → List String) {rejected : String}
    {rowF : OutboxRow} (h : x.Pending id row) (hF : F rejected) (hpending : x.Pending rejected rowF)
    (hfirst : ∀ k, (afterTicks F nows scans x k).Pending rejected rowF →
      (afterTicks F nows scans x k).Pending id row → ComesFirst rejected id
        ((getPendingOutboxBatch (afterTicks F nows scans x k).db (scans k)).map Prod.fst)) (k : ℕ) :
    (afterTicks F nows scans x k).Pending rejected rowF ∧
      (afterTicks F nows scans x k).Pending id row := by
  induction k with
  | zero => exact ⟨hpending, h⟩
  | succ k ih =>
      obtain ⟨hrejected, hrow⟩ := ih
      exact ⟨hrejected.tick (not_served_of_rejected hF),
        hrow.tick (not_served_of_comesFirst hF (hfirst k hrejected hrow))⟩

theorem Pending.not_isPublished (h : x.Pending id row) : ¬ x.IsPublished id := by
  rintro ⟨row', hrow', hmarked, -⟩
  obtain rfl := Option.some.inj (h.1.symm.trans hrow')
  rw [h.2] at hmarked
  simp at hmarked

/-! ### Rows of one age -/

omit [DecidableEq β] in
/-- A scan may come upon any one row before any other. -/
theorem exists_scan {db : ServiceStore ρ} {first second : String} (hne : first ≠ second) :
    ∃ scan, Scans db scan ∧ [first, second].Sublist scan := by
  let others := (db.keys.image ServiceKey.outboxId).toList.filter fun id =>
    id ≠ first ∧ id ≠ second
  refine ⟨first :: second :: others, ⟨?_, ?_⟩, List.sublist_append_left [first, second] others⟩
  · have hothers : others.Nodup := (Finset.nodup_toList _).filter _
    have hfirst : first ∉ others := by simp [others]
    have hsecond : second ∉ others := by simp [others]
    simp [hne, hfirst, hsecond, hothers]
  · intro k hk
    cases k with
    | own key => trivial
    | processed eventId => trivial
    | outbox id =>
        show id ∈ first :: second :: others
        by_cases hfirst : id = first
        · simp [hfirst]
        · by_cases hsecond : id = second
          · simp [hsecond]
          · have hid : id ∈ db.keys.image ServiceKey.outboxId :=
              Finset.mem_image.mpr ⟨.outbox id, hk, rfl⟩
            refine List.mem_cons_of_mem _ (List.mem_cons_of_mem _ (List.mem_filter.mpr ⟨?_, ?_⟩))
            · exact Finset.mem_toList.mpr hid
            · simp [hfirst, hsecond]

/-- The sort keeps the order of the scan among rows of one age. -/
theorem comesFirst_of_scan {scan : List String} {first : String} {rowF : OutboxRow}
    (hscan : Scans x.db scan) (horder : [first, id].Sublist scan) (hfirst : x.Pending first rowF)
    (hsecond : x.Pending id row) (hle : rowF.createdAt ≤ row.createdAt) :
    ComesFirst first id ((getPendingOutboxBatch x.db scan).map Prod.fst) := by
  let entryOf := fun id => (outboxAt x.db id).map fun row => (id, row)
  let sorted := (pendingOutbox x.db scan).insertionSort fun a b => a.2.createdAt ≤ b.2.createdAt
  have hfound : [(first, rowF), (id, row)].Sublist (scan.filterMap entryOf) := by
    have hmap := horder.filterMap entryOf
    simpa [entryOf, hfirst.1, hsecond.1] using hmap
  have hpending : [(first, rowF), (id, row)].Sublist (pendingOutbox x.db scan) := by
    have hkept : [(first, rowF), (id, row)].filter (fun entry => entry.2.publishedAt = none) =
        [(first, rowF), (id, row)] := by
      simp [hfirst.2, hsecond.2]
    rw [← hkept]
    exact hfound.filter fun entry => entry.2.publishedAt = none
  have hsorted : [(first, rowF), (id, row)].Sublist sorted :=
    List.pair_sublist_insertionSort hle hpending
  have hnodup : (sorted.map Prod.fst).Nodup := by
    have hperm : (sorted.map Prod.fst).Perm ((pendingOutbox x.db scan).map Prod.fst) :=
      (List.perm_insertionSort _ _).map _
    refine hperm.nodup_iff.mpr (nodup_pendingOutbox hscan)
  have hwhole : ComesFirst first id (sorted.map Prod.fst) :=
    comesFirst_of_sublist (hsorted.map Prod.fst) hnodup
  rw [← List.take_append_drop 25 sorted, List.map_append] at hwhole
  exact hwhole.of_append

/--
**What is published is what no rejected row precedes.**  Every order of finding the rows
publishes a row that is not itself rejected, and some number of ticks does so in all of them, if
and only if all rejected rows are younger; and if one of them is older, no number of ticks does.
-/
theorem published_iff_clear (h : x.Pending id row) (hF : F id = false) :
    ((∀ nows scans, (∀ k, Scans (afterTicks F nows scans x k).db (scans k)) →
      ∃ k, (afterTicks F nows scans x k).IsPublished id) ↔ Clear F x row) ∧
    (Clear F x row → ∃ k, ∀ nows scans, (∀ k, Scans (afterTicks F nows scans x k).db (scans k)) →
      (afterTicks F nows scans x k).IsPublished id) ∧
    ∀ rejected rowF, F rejected → x.Pending rejected rowF → rowF.createdAt < row.createdAt →
      ∀ nows scans, (∀ k, Scans (afterTicks F nows scans x k).db (scans k)) →
        ∀ k, ¬ (afterTicks F nows scans x k).IsPublished id := by
  have hclear : Clear F x row → ∃ k, ∀ nows scans,
      (∀ k, Scans (afterTicks F nows scans x k).db (scans k)) →
        (afterTicks F nows scans x k).IsPublished id :=
    fun hclear => ⟨_, fun nows scans hscans => h.isPublished hclear hscans⟩
  refine ⟨⟨fun hall rejected rowF hrejected hpending => ?_, fun hclear' nows scans hscans => ?_⟩,
    hclear, fun rejected rowF hrejected hpending hlt nows scans hscans k => ?_⟩
  · -- If the rejected row is not younger, it can be found first by every tick.
    by_contra hle
    have hne : rejected ≠ id := by
      rintro rfl
      rw [hF] at hrejected
      simp at hrejected
    obtain ⟨scan, hscan, horder⟩ := exists_scan hne
    have hscans : ∀ k, Scans (afterTicks F (fun _ => 0) (fun _ => scan) x k).db scan :=
      fun k => (scans_afterTicks k).mpr hscan
    obtain ⟨k, hpublished⟩ := hall (fun _ => 0) (fun _ => scan) hscans
    have hblocked := h.blocked (fun _ => 0) (fun _ => scan) hrejected hpending
      fun k hrejected' hrow' => comesFirst_of_scan (hscans k) horder hrejected' hrow' (by omega)
    exact (hblocked k).2.not_isPublished hpublished
  · obtain ⟨k, hk⟩ := hclear hclear'
    exact ⟨k, hk nows scans hscans⟩
  · have hblocked := h.blocked nows scans hrejected hpending fun k hrejected' hrow' =>
      comesFirst_batch hrejected'.1 hrejected'.2 (hscans k) fun row' hrow'' => by
        obtain rfl := Option.some.inj (hrow''.symm.trans hrow'.1)
        exact hlt
    exact (hblocked k).2.not_isPublished

end Outlet

end CommercePlatform

/-! ### An order that the broker does not take -/

namespace CommercePlatform.Oversized

open Js

attribute [local instance] Platform.plain

/-- An order of one piece. -/
def call (idempotencyKey itemSku : String) (hsku : 3 ≤ utf16Length itemSku) :
    Orders.CreateOrderCall where
  body := {
    itemSku := itemSku
    quantity := 1
    totalAmount := .finite 90
    currency := "USD"
    itemSku_min := hsku
    quantity_pos := by decide
    totalAmount_pos := by decide
    currency_length := by decide }
  userSub := "auth0|alice"
  idempotencyKey := idempotencyKey
  correlationId := "req-1"

/-- The event of a new order, as its outbox has it. -/
def reserveRow (orderId eventId itemSku : String) (createdAt : ℕ) : OutboxRow where
  topic := topics.inventory
  routingKey := routingKeys.reserveInventory
  payload := .obj [
    ("eventType", .str "ReserveInventoryRequested"),
    ("orderId", .str orderId),
    ("userId", .str "auth0|alice"),
    ("itemSku", .str itemSku),
    ("quantity", .num (.finite 1)),
    ("totalAmount", .num (.finite 90)),
    ("currency", .str "USD"),
    ("eventId", .str eventId)]
  headers := [("eventId", .str eventId), ("correlationId", .str "req-1")]
  publishedAt := none
  createdAt := createdAt

/-- It is the row that `createOrder` writes. -/
theorem outboxRow_reserve (idempotencyKey : String) {orderId eventId rowId itemSku : String}
    (hsku : 3 ≤ utf16Length itemSku) (hrow : uuidParam (some (.str rowId)) = .ok (some rowId))
    (horder : '\x00' ∉ orderId.toList) (hevent : '\x00' ∉ eventId.toList)
    (hitem : '\x00' ∉ itemSku.toList) (createdAt : ℕ) :
    outboxRow { eventId := eventId, rowId := rowId, now := createdAt } topics.inventory
      (Orders.reserveInventoryEvent (call idempotencyKey itemSku hsku) orderId eventId) =
        .ok (rowId, reserveRow orderId eventId itemSku createdAt) := by
  have hpayload :
      (Orders.reserveInventoryEvent (call idempotencyKey itemSku hsku) orderId
        eventId).payload.defined =
      [("eventType", .str "ReserveInventoryRequested"), ("orderId", .str orderId),
        ("userId", .str "auth0|alice"), ("itemSku", .str itemSku), ("quantity", .num (.finite 1)),
        ("totalAmount", .num (.finite 90)), ("currency", .str "USD"),
        ("eventId", .str eventId)] := by
    have hcurrency : (call idempotencyKey itemSku hsku).normalizedCurrency = "USD" := by
      show Platform.toUpperCase "USD" = "USD"
      decide
    unfold Orders.reserveInventoryEvent
    rw [hcurrency]
    simp [Orders.createEventEnvelope, eventEnvelope, Fields.set, Fields.defined, call]
  have hheaders :
      (Orders.reserveInventoryEvent (call idempotencyKey itemSku hsku) orderId
        eventId).headers.defined =
      [("eventId", .str eventId), ("correlationId", .str "req-1")] := rfl
  have hrouting :
      (Orders.reserveInventoryEvent (call idempotencyKey itemSku hsku) orderId
        eventId).routingKey = routingKeys.reserveInventory := rfl
  simp +decide [outboxRow, hpayload, hheaders, hrouting, hrow, jsonb, jsonbFields, textIn, horder,
    hevent, hitem, notNull, bind, Except.bind, Except.map, pure, Except.pure, reserveRow]

theorem get_orderId (orderId eventId itemSku : String) (createdAt : ℕ) :
    (reserveRow orderId eventId itemSku createdAt).payload.get "orderId" =
      .ok (some (.str orderId)) := by
  simp [reserveRow, List.lookup_cons]

def oversizedId : String := "6f1e7c1e-7c58-4a9e-9a57-1c9d3f2b0a21"

def healthyId : String := "6f1e7c1e-7c58-4a9e-9a57-1c9d3f2b0a22"

def itemSku (length : ℕ) : String := String.ofList (List.replicate length 'W')

/--
A stock-keeping unit of 1 048 400 characters.  The schema of a request has no bound on it, and its
request is within the mebibyte that the HTTP server takes; with what the service adds to it, the
message is not within the mebibyte of the broker.
-/
def oversized : OutboxRow :=
  reserveRow "6f1e7c1e-7c58-4a9e-9a57-1c9d3f2b0a01" "6f1e7c1e-7c58-4a9e-9a57-1c9d3f2b0a11"
    (itemSku 1048400) 2

def healthy (createdAt : ℕ) : OutboxRow :=
  reserveRow "6f1e7c1e-7c58-4a9e-9a57-1c9d3f2b0a02" "6f1e7c1e-7c58-4a9e-9a57-1c9d3f2b0a12"
    "SKU-CHAIR-001" createdAt

theorem utf16Length_itemSku (length : ℕ) : utf16Length (itemSku length) = length := by
  unfold utf16Length itemSku
  rw [String.toList_ofList, List.map_replicate]
  simp

theorem not_mem_itemSku (length : ℕ) : '\x00' ∉ (itemSku length).toList := by
  unfold itemSku
  rw [String.toList_ofList]
  intro hmem
  exact absurd (List.eq_of_mem_replicate hmem) (by decide)

/-- `createOrder` writes the row. -/
def Written (id : String) (row : OutboxRow) : Prop :=
  ∃ call orderId choices, outboxRow choices topics.inventory
    (Orders.reserveInventoryEvent call orderId choices.eventId) = .ok (id, row)

theorem written_oversized : Written oversizedId oversized := by
  have hlength : 3 ≤ utf16Length (itemSku 1048400) := by
    have hsku := utf16Length_itemSku 1048400
    omega
  exact ⟨_, _, _, outboxRow_reserve "order-001" hlength (by decide) (by decide) (by decide)
    (not_mem_itemSku _) 2⟩

theorem written_healthy (createdAt : ℕ) : Written healthyId (healthy createdAt) :=
  ⟨_, _, _, outboxRow_reserve "order-002" (by decide) (by decide) (by decide) (by decide)
    (by decide) createdAt⟩

/-- An order of a chair, created at some time, beside the oversized one, created at 2. -/
def outlet (createdAt : ℕ) : Outlet Orders.Row where
  db := (Finmap.singleton (ServiceKey.outbox oversizedId) oversized).insert (.outbox healthyId)
    (healthy createdAt)
  sent := []

/-- The broker does not take the oversized message. -/
def rejects (id : String) : Bool := id = oversizedId

theorem pending_oversized (createdAt : ℕ) : (outlet createdAt).Pending oversizedId oversized :=
  ⟨by simp [outlet, outboxAt, oversizedId, healthyId], rfl⟩

theorem pending_healthy (createdAt : ℕ) :
    (outlet createdAt).Pending healthyId (healthy createdAt) :=
  ⟨by simp [outlet, outboxAt], rfl⟩

theorem pending_of_rejects {createdAt : ℕ} {id : String} {row : OutboxRow} (h : rejects id)
    (hrow : outboxAt (outlet createdAt).db id = some row) : row = oversized := by
  obtain rfl : id = oversizedId := by simpa [rejects] using h
  exact Option.some.inj (hrow.symm.trans (pending_oversized createdAt).1)

/-- No row of its order is rejected, and it stays behind the oversized one for ever. -/
theorem stalled : Written oversizedId oversized ∧ Written healthyId (healthy 3) ∧
    (outlet 3).Pending healthyId (healthy 3) ∧ rejects healthyId = false ∧
    (∀ id row, rejects id → outboxAt (outlet 3).db id = some row →
      row.payload.get "orderId" ≠ (healthy 3).payload.get "orderId") ∧
    (∃ scan, Scans (outlet 3).db scan) ∧
    ∀ nows scans, (∀ k, Scans (Outlet.afterTicks rejects nows scans (outlet 3) k).db (scans k)) →
      ∀ k, ¬ (Outlet.afterTicks rejects nows scans (outlet 3) k).IsPublished healthyId := by
  refine ⟨written_oversized, written_healthy 3, pending_healthy 3, by decide,
    fun id row hrejects hrow => ?_, ?_, fun nows scans hscans k => ?_⟩
  · rw [pending_of_rejects hrejects hrow]
    rw [oversized, healthy, get_orderId, get_orderId]
    simp
  · have hne : oversizedId ≠ healthyId := by decide
    obtain ⟨scan, hscan, -⟩ := Outlet.exists_scan hne
    exact ⟨scan, hscan⟩
  · have hblocked := (pending_healthy 3).blocked nows scans (by decide : rejects oversizedId)
      (pending_oversized 3) fun k hrejected hrow =>
        comesFirst_batch hrejected.1 hrejected.2 (hscans k) fun row' hrow' => by
          obtain rfl := Option.some.inj (hrow'.symm.trans hrow.1)
          show 2 < 3
          omega
    exact (hblocked k).2.not_isPublished

/-- Created before it, the same row is published. -/
theorem passed : ∃ k, ∀ nows scans,
    (∀ k, Scans (Outlet.afterTicks rejects nows scans (outlet 1) k).db (scans k)) →
      (Outlet.afterTicks rejects nows scans (outlet 1) k).IsPublished healthyId := by
  refine (Outlet.published_iff_clear (pending_healthy 1) (by decide)).2.1 ?_
  intro id row hrejects hpending
  rw [pending_of_rejects hrejects hpending.1]
  show 1 < 2
  omega

end CommercePlatform.Oversized
