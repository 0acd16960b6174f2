/-
Stock accounting under concurrent commands.

The server runs the commands of many orders at once, statement by statement.  What
keeps a commit an atomic run of its command (`Txn/Replay.lean`) is this: the items a
command changes it has locked; and a release looks at its reservation without a lock,
but the only other command that could be writing it is the reserve of the same order,
which was processed before the release could be sent.
-/
import CommercePlatform.Txn.ExactlyOnce
import CommercePlatform.Inventory.Accounts

namespace CommercePlatform.Inventory

open Js Txn

/-- The keys of items, under which nothing is ever inserted. -/
def IsItem (k : ServiceKey Key) : Prop := ∃ sku, k = .own (.item sku)

variable [Platform]

/-- What each delivery may do. -/
abbrev rules (delivery : Delivery) : Discipline (ServiceRow Row) :=
  (commandRule delivery.message).discipline

theorem rules_items (delivery : Delivery) (k : ServiceKey Key) (hk : IsItem k) :
    ¬ (rules delivery).mayClaim k := by
  obtain ⟨sku, rfl⟩ := hk
  exact id

/-! ### A commit is never in another session's way -/

section Unshadowed

variable {s : Server (ServiceRow Row) Error Unit Delivery}

/--
Two open commands for one order are in each other's way only if one is a release that
has looked at the reservation and the other writes it.  That cannot be if they are the
same event, as only one of them can have claimed it, nor if the writer was processed
before.
-/
theorem unshadowed (hdisc : s.Disciplined rules) (hmiss : s.MissesAbsent IsItem)
    (hpair : ∀ i σ j τ orderId, s.sessions i = some σ → s.sessions j = some τ →
      isRelease τ.job.message → orderIdOf τ.job.message.value = some orderId →
      orderIdOf σ.job.message.value = some orderId →
      ∃ key, eventKey σ.job.message = some key ∧
        (eventKey τ.job.message = some key ∨ processedAt s.db key ≠ none))
    (i : ℕ) : s.Unshadowed i := by
  intro σ hσ j τ hj hτ k hpeek hwrite
  obtain ⟨gσ, hgσ⟩ := hdisc i σ hσ
  obtain ⟨gτ, hgτ⟩ := hdisc j τ hτ
  rcases List.mem_append.mp hpeek with hread | hmissed
  · obtain ⟨hguardτ, key, rfl, hreads⟩ := hgτ.reads k hread
    obtain ⟨row, hrow⟩ := Finmap.mem_iff.mp hwrite
    obtain ⟨hguardσ, hputs⟩ := (hgσ.writes (ServiceKey.own key) row hrow).2
    cases key with
    | item sku => exact hreads
    | reservation orderId =>
        obtain ⟨hrelease, horder⟩ := hreads
        obtain ⟨e, heσ, heτ | hdone⟩ := hpair i σ j τ orderId hσ hτ hrelease horder hputs
        · have hlockσ := (hgσ.claimed _ (hguardσ e heσ)).1
          have hlockτ := (hgτ.claimed _ (hguardτ e heτ)).1
          rw [hlockσ] at hlockτ
          exact hj (Option.some.inj hlockτ).symm
        · have hnew := (hgσ.claimed _ (hguardσ e heσ)).2.1
          exact hdone (Finmap.lookup_eq_none.mpr hnew)
  · obtain ⟨-, key, rfl, hmisses⟩ := hgτ.misses k hmissed
    cases key with
    | item sku =>
        have habsent := hmiss j τ hτ _ hmissed ⟨sku, rfl⟩
        exact habsent (hgσ.mem_of_write hwrite (rules_items _ _ ⟨sku, rfl⟩))
    | reservation orderId => exact hmisses

end Unshadowed

/-! ### The commands of the order service -/

/-- For each order at most one reserve and one release, each an event of its own. -/
structure Commands where
  reserve : String → Option KafkaMessage
  release : String → Option KafkaMessage
  reserve_order : ∀ orderId message, reserve orderId = some message →
    ∃ text, message.value.get "orderId" = .ok (some (.str text)) ∧
      orderIdOf message.value = some orderId
  reserve_kind : ∀ orderId message, reserve orderId = some message → ¬ isRelease message
  reserve_quantity : ∀ orderId message, reserve orderId = some message →
    ∃ quantity : ℤ, 0 < quantity ∧
      message.value.get "quantity" = .ok (some (.num (.finite quantity)))
  release_order : ∀ orderId message, release orderId = some message →
    orderIdOf message.value = some orderId
  release_kind : ∀ orderId message, release orderId = some message → isRelease message
  reserve_event : ∀ orderId message, reserve orderId = some message →
    ∃ key, eventKey message = some key
  release_event : ∀ orderId message, release orderId = some message →
    ∃ key, eventKey message = some key

/-- The row is the event that the order is reserved. -/
def ReservedEvent (row : OutboxRow) (orderId : String) : Prop :=
  row.routingKey = routingKeys.inventoryReserved ∧ orderIdOf row.payload = some orderId

/-- A reserve may arrive at any time, a release only once the order was reserved. -/
def Commands.MayArrive (commands : Commands) (s : Server (ServiceRow Row) Error Unit Delivery)
    (delivery : Delivery) : Prop :=
  (∃ orderId, commands.reserve orderId = some delivery.message) ∨
    ∃ orderId, commands.release orderId = some delivery.message ∧
      ∃ id row, outboxAt s.db id = some row ∧ ReservedEvent row orderId

/-- The reserve of the order has been processed. -/
def Commands.Reserved (commands : Commands) (db : ServiceStore Row) (orderId : String) : Prop :=
  ∃ message key, commands.reserve orderId = some message ∧ eventKey message = some key ∧
    processedAt db key ≠ none

theorem Commands.Reserved.mono {commands : Commands} {db db' : ServiceStore Row} {orderId : String}
    (h : commands.Reserved db orderId) (hmono : ∀ k ∈ db, k ∈ db') :
    commands.Reserved db' orderId := by
  obtain ⟨message, key, hcommand, hkey, hdone⟩ := h
  refine ⟨message, key, hcommand, hkey, fun hnone => ?_⟩
  have hmem : ServiceKey.processed key ∈ db := by
    by_contra hnot
    exact hdone (Finmap.lookup_eq_none.mpr hnot)
  exact Finmap.lookup_eq_none.mp hnone (hmono _ hmem)

/-- What holds of the service in every run of these commands. -/
structure Fed (commands : Commands) (stock : String → Option Item)
    (s : Server (ServiceRow Row) Error Unit Delivery) : Prop where
  sound : s.Sound (Handler.serve handleInventoryCommand)
  disciplined : s.Disciplined rules
  missesAbsent : s.MissesAbsent IsItem
  jobs : ∀ i σ, s.sessions i = some σ → ∃ orderId,
    commands.reserve orderId = some σ.job.message ∨
      (commands.release orderId = some σ.job.message ∧ commands.Reserved s.db orderId)
  reservations : ∀ orderId, ownRow s.db (.reservation orderId) ≠ none →
    commands.Reserved s.db orderId
  events : ∀ id row orderId, outboxAt s.db id = some row → ReservedEvent row orderId →
    commands.Reserved s.db orderId
  accounts : Accounts stock s.db

namespace Fed

variable {commands : Commands} {stock : String → Option Item}
  {s s' : Server (ServiceRow Row) Error Unit Delivery}

theorem unshadowed (h : Fed commands stock s) (i : ℕ) : s.Unshadowed i := by
  refine Inventory.unshadowed h.disciplined h.missesAbsent ?_ i
  intro i σ j τ orderId hσ hτ hrelease horderτ horderσ
  obtain ⟨orderτ, hreserveτ | ⟨hreleaseτ, hreserved⟩⟩ := h.jobs j τ hτ
  · exact absurd hrelease (commands.reserve_kind orderτ _ hreserveτ)
  · have heqτ : orderτ = orderId :=
      Option.some.inj ((commands.release_order _ _ hreleaseτ).symm.trans horderτ)
    subst heqτ
    obtain ⟨orderσ, hreserveσ | ⟨hreleaseσ, -⟩⟩ := h.jobs i σ hσ
    · obtain ⟨-, -, horder⟩ := commands.reserve_order _ _ hreserveσ
      have heqσ : orderσ = orderτ := Option.some.inj (horder.symm.trans horderσ)
      subst heqσ
      obtain ⟨message, key, hcommand, hkey, hdone⟩ := hreserved
      rw [hreserveσ] at hcommand
      exact ⟨key, Option.some.inj hcommand ▸ hkey, Or.inr hdone⟩
    · have heqσ : orderσ = orderτ :=
        Option.some.inj ((commands.release_order _ _ hreleaseσ).symm.trans horderσ)
      subst heqσ
      obtain ⟨key, hkey⟩ := commands.release_event _ _ hreleaseσ
      rw [hreleaseσ] at hreleaseτ
      exact ⟨key, hkey, Or.inl (Option.some.inj hreleaseτ ▸ hkey)⟩

/-- A command that is new asks for a positive quantity, and for an order not reserved yet. -/
theorem sane (h : Fed commands stock s) {i : ℕ}
    {σ : Session (ServiceRow Row) Error Unit Delivery} (hσ : s.sessions i = some σ) {key : String}
    (hkey : eventKey σ.job.message = some key) (hnew : processedAt s.db key = none) :
    Accounts.Sane σ.job.message s.db := by
  obtain ⟨orderId, hcommand⟩ := h.jobs i σ hσ
  have hreserve : ¬ isRelease σ.job.message → commands.reserve orderId = some σ.job.message := by
    intro hkind
    rcases hcommand with hreserve | ⟨hrelease, -⟩
    · exact hreserve
    · exact absurd (commands.release_kind _ _ hrelease) hkind
  constructor
  · intro hkind quantity amount hget hamount
    obtain ⟨q, hpositive, hquantity⟩ := commands.reserve_quantity _ _ (hreserve hkind)
    rw [hquantity] at hget
    obtain rfl := Except.ok.inj hget
    have hvalue := int4Param_int hamount
    rw [hvalue]
    exact ⟨hpositive, rfl⟩
  · intro hkind orderId' horder'
    obtain ⟨-, -, horder⟩ := commands.reserve_order _ _ (hreserve hkind)
    obtain rfl : orderId' = orderId := Option.some.inj (horder'.symm.trans horder)
    by_contra hreserved
    obtain ⟨message, key', hcommand', hkey', hdone⟩ := h.reservations orderId' hreserved
    rw [hreserve hkind] at hcommand'
    obtain rfl := Option.some.inj hcommand'
    rw [hkey] at hkey'
    exact hdone (Option.some.inj hkey' ▸ hnew)

/-- What a new command has left: reservations and events of orders that are reserved now. -/
theorem effect_reserved (h : Fed commands stock s) {message : KafkaMessage} {choices : Choices}
    {db' : ServiceStore Row} {key : String} {row : ProcessedEvent}
    (hcommand : ∀ orderId, ¬ isRelease message → orderIdOf message.value = some orderId →
      commands.reserve orderId = some message)
    (htext : ¬ isRelease message → ∃ text, message.value.get "orderId" = .ok (some (.str text)))
    (hkey : eventKey message = some key) (hmono : ∀ k ∈ s.db, k ∈ db')
    (hdone : processedAt db' key ≠ none)
    (heffect : Effect message choices (s.db.insert (ServiceKey.processed key) row) db') :
    (∀ orderId, ownRow db' (.reservation orderId) ≠ none → commands.Reserved db' orderId) ∧
      ∀ id row orderId, outboxAt db' id = some row → ReservedEvent row orderId →
        commands.Reserved db' orderId := by
  have hold : ∀ orderId, ownRow (s.db.insert (ServiceKey.processed key) row)
      (.reservation orderId) ≠ none → commands.Reserved db' orderId := by
    intro orderId hrow
    rw [ownRow_insert_processed] at hrow
    exact (h.reservations orderId hrow).mono hmono
  have hevents : ∀ id out orderId,
      outboxAt (s.db.insert (ServiceKey.processed key) row) id = some out →
      ReservedEvent out orderId → commands.Reserved db' orderId := by
    intro id out orderId hout hevent
    rw [outboxAt_insert_processed] at hout
    exact (h.events id out orderId hout hevent).mono hmono
  cases heffect with
  | ignored => exact ⟨hold, hevents⟩
  | @released orderId reservation item hrelease horder hreservation hreserved hmove =>
      constructor
      · intro orderId' hrow
        by_cases heq : orderId' = orderId
        · subst heq
          exact hold orderId' (by rw [hreservation]; simp)
        · refine hold orderId' fun hnone => hrow ?_
          refine (Accounts.reservation_moved orderId').trans ?_
          rw [if_neg heq, hnone]
      · intro id out orderId' hout
        exact hevents id out orderId' (by simpa using hout)
  | @rejected orderId id out hreserve hget hrow hfree =>
      constructor
      · intro orderId' hreservation
        exact hold orderId' (by simpa using hreservation)
      · intro id' out' orderId' hout hevent
        by_cases heq : id' = id
        · subst heq
          obtain rfl : out = out' := by simpa [outboxAt] using hout
          obtain ⟨-, -, -, -, hrouting, -⟩ := outboxRow_eq_ok hrow
          have hwrong := hrouting.symm.trans hevent.1
          simp [inventoryRejected, createEventEnvelope, eventEnvelope,
            routingKeys.inventoryRejected, routingKeys.inventoryReserved] at hwrong
        · rw [outboxAt_insert_of_ne out heq] at hout
          exact hevents id' out' orderId' hout hevent
  | @reserved sku orderId id orderIdValue quantity totalAmount currency amount old item reservation
      out hreserve hget horder hquantity hamount hitem henough hmove hreservation hrow hfree =>
      have hnow : commands.Reserved _ orderId :=
        ⟨message, key, hcommand orderId hreserve horder, hkey, hdone⟩
      constructor
      · intro orderId' hrow'
        by_cases heq : orderId' = orderId
        · subst heq
          exact hnow
        · refine hold orderId' fun hnone => hrow' ?_
          rw [ownRow_insert_outbox]
          refine (Accounts.reservation_moved orderId').trans ?_
          rw [if_neg heq, hnone]
      · intro id' out' orderId' hout hevent
        by_cases heq : id' = id
        · subst heq
          obtain rfl : out = out' := by simpa [outboxAt] using hout
          -- The event names the order in the words of the command.
          obtain ⟨text, htext⟩ := htext hreserve
          rw [htext] at hget
          obtain rfl := Except.ok.inj hget
          obtain ⟨-, hpayload, -⟩ := outboxRow_eq_ok hrow
          have hsame : out.payload.get "orderId" = .ok (some (.str text)) := by
            refine jsonb_obj_text hpayload ?_
            rfl
          have heq : orderIdOf out.payload = orderIdOf message.value := by
            unfold orderIdOf
            rw [hsame, htext]
          have horder' : some orderId' = some orderId :=
            hevent.2.symm.trans (heq.trans horder)
          rw [Option.some.inj horder']
          exact hnow
        · rw [outboxAt_insert_of_ne out heq] at hout
          exact hevents id' out' orderId' (by simpa using hout) hevent

/-! ### Every run -/

omit [Platform] in
/-- The books at the start, when there is no reservation. -/
theorem accounts_start {db₀ : ServiceStore Row}
    (hnone : ∀ orderId, ownRow db₀ (.reservation orderId) = none) :
    Accounts (fun sku => ownRow db₀ (.item sku)) db₀ := by
  have hheld : ∀ sku, heldOf sku db₀ = 0 := by
    intro sku
    refine Finset.sum_eq_zero fun k _ => ?_
    cases hrow : db₀.lookup k with
    | none => exact weigh_of_none hrow
    | some row =>
        rw [weigh_of_lookup hrow]
        match k, row, hrow with
        | .own (.item _), _, _ => rfl
        | .own (.reservation orderId), _, hrow => simp [hnone orderId] at hrow
        | .outbox _, _, _ => rfl
        | .processed _, _, _ => rfl
  refine ⟨fun sku => Iff.rfl, ?_, ?_, ?_, ?_, ?_⟩
  · intro sku item opening hitem hopening
    obtain rfl := Option.some.inj (hitem.symm.trans hopening)
    rw [hheld]
    omega
  · intro sku item opening hitem hopening
    obtain rfl := Option.some.inj (hitem.symm.trans hopening)
    rfl
  · intro sku item opening hitem hopening hopen
    obtain rfl := Option.some.inj (hitem.symm.trans hopening)
    exact hopen
  · intro orderId reservation hrow
    simp [hnone orderId] at hrow
  · intro orderId reservation hrow
    simp [hnone orderId] at hrow

theorem start {db₀ : ServiceStore Row} (hnone : ∀ orderId, ownRow db₀ (.reservation orderId) = none)
    (hevents : ∀ id row orderId, outboxAt db₀ id = some row → ¬ ReservedEvent row orderId) :
    Fed commands (fun sku => ownRow db₀ (.item sku)) (Server.start db₀) where
  sound := Server.sound_start db₀
  disciplined := Server.disciplined_start db₀
  missesAbsent := Server.missesAbsent_start db₀
  jobs i σ hσ := by simp [Server.start] at hσ
  reservations orderId hrow := absurd (hnone orderId) hrow
  events id row orderId hrow hevent := absurd hevent (hevents id row orderId hrow)
  accounts := accounts_start hnone

theorem begin (h : Fed commands stock s) {i : ℕ} {delivery : Delivery}
    (harrive : commands.MayArrive s delivery)
    (hs : s.begin (Handler.serve handleInventoryCommand) i delivery = some s') :
    Fed commands stock s' := by
  have hdisc := h.disciplined.begin (obeys_serve delivery) hs
  have hmiss := h.missesAbsent.step h.disciplined (fun _ k hk => rules_items _ k hk)
    (show s.step (Handler.serve handleInventoryCommand) (.begin i delivery) = some s' from hs)
  have hsound := h.sound.begin hs
  obtain ⟨-, rfl⟩ := Server.begin_cases hs
  refine ⟨hsound, hdisc, hmiss, fun j τ hτ => ?_, h.reservations, h.events, h.accounts⟩
  rcases Server.sessions_update hτ with ⟨rfl, hopen⟩ | ⟨-, hτ⟩
  · rw [← Option.some.inj hopen]
    rcases harrive with ⟨orderId, hreserve⟩ | ⟨orderId, hrelease, id, row, hrow, hevent⟩
    · exact ⟨orderId, Or.inl hreserve⟩
    · exact ⟨orderId, Or.inr ⟨hrelease, h.events id row orderId hrow hevent⟩⟩
  · exact h.jobs j τ hτ

theorem exec (h : Fed commands stock s) {i : ℕ} (hs : s.exec i = some s') :
    Fed commands stock s' := by
  have hdisc := h.disciplined.exec hs
  have hmiss := h.missesAbsent.step h.disciplined (fun _ k hk => rules_items _ k hk)
    (show s.step (Handler.serve handleInventoryCommand) (.exec i) = some s' from hs)
  have hsound := h.sound.exec hs
  obtain ⟨σ, σ', need, hσ, hadv, -, hdb, -, hsess, -⟩ := Server.exec_cases hs
  refine ⟨hsound, hdisc, hmiss, fun j τ hτ => ?_, ?_, ?_, ?_⟩
  · rw [hsess] at hτ
    rw [hdb]
    rcases Server.sessions_update hτ with ⟨rfl, hnext⟩ | ⟨-, hτ⟩
    · rw [← Option.some.inj hnext, Session.advance_job hadv]
      exact h.jobs j σ hσ
    · exact h.jobs j τ hτ
  · rw [hdb]
    exact h.reservations
  · rw [hdb]
    exact h.events
  · rw [hdb]
    exact h.accounts

theorem rollback (h : Fed commands stock s) {i : ℕ} (hs : s.rollback i = some s') :
    Fed commands stock s' := by
  have hdisc := h.disciplined.rollback hs
  have hmiss := h.missesAbsent.step h.disciplined (fun _ k hk => rules_items _ k hk)
    (show s.step (Handler.serve handleInventoryCommand) (.rollback i) = some s' from hs)
  have hsound := h.sound.rollback hs
  obtain ⟨σ, -, rfl⟩ := Server.rollback_cases hs
  refine ⟨hsound, hdisc, hmiss, fun j τ hτ => ?_, h.reservations, h.events, h.accounts⟩
  exact h.jobs j τ (Server.sessions_drop hτ).2

/-- A commit is an atomic run of its command, and that keeps the accounts. -/
theorem commit (h : Fed commands stock s) {i : ℕ} (hs : s.commit i = some s') :
    Fed commands stock s' := by
  have hdisc := h.disciplined.commit hs
  have hmiss := h.missesAbsent.step h.disciplined (fun _ k hk => rules_items _ k hk)
    (show s.step (Handler.serve handleInventoryCommand) (.commit i) = some s' from hs)
  have hsound := h.sound.commit (h.unshadowed i) hs
  obtain ⟨σ, ⟨⟩, hσ, hrun, -⟩ := h.sound.commit_run hs
  have hmono : ∀ k ∈ s.db, k ∈ s'.db := fun k hk => Tx.run_mono hrun hk
  have haccounts : Accounts stock s'.db :=
    h.accounts.handleInventoryCommand (fun key hkey hnew => h.sane hσ hkey hnew) hrun
  have hjobs : ∀ j τ, s'.sessions j = some τ → ∃ orderId,
      commands.reserve orderId = some τ.job.message ∨
        (commands.release orderId = some τ.job.message ∧ commands.Reserved s'.db orderId) := by
    intro j τ hτ
    have hold : s.sessions j = some τ := by
      obtain ⟨_, _, -, -, rfl⟩ := Server.commit_cases hs
      exact (Server.sessions_drop hτ).2
    obtain ⟨orderId, hreserve | ⟨hrelease, hreserved⟩⟩ := h.jobs j τ hold
    · exact ⟨orderId, Or.inl hreserve⟩
    · exact ⟨orderId, Or.inr ⟨hrelease, hreserved.mono hmono⟩⟩
  obtain ⟨key, hkey, ⟨-, hdb⟩ | ⟨row, hnew, heffect⟩⟩ :=
    handleInventoryCommand_effect h.accounts.foreignKey hrun
  · refine ⟨hsound, hdisc, hmiss, hjobs, ?_, ?_, haccounts⟩
    · rw [hdb]
      exact h.reservations
    · rw [hdb]
      exact h.events
  · obtain ⟨orderσ, hcommandσ⟩ := h.jobs i σ hσ
    have hreserve : ¬ isRelease σ.job.message →
        commands.reserve orderσ = some σ.job.message := by
      intro hkind
      rcases hcommandσ with hreserve | ⟨hrelease, -⟩
      · exact hreserve
      · exact absurd (commands.release_kind _ _ hrelease) hkind
    have horders : ∀ orderId, ¬ isRelease σ.job.message →
        orderIdOf σ.job.message.value = some orderId →
          commands.reserve orderId = some σ.job.message := by
      intro orderId hkind horder
      obtain ⟨-, -, horder'⟩ := commands.reserve_order _ _ (hreserve hkind)
      obtain rfl := Option.some.inj (horder'.symm.trans horder)
      exact hreserve hkind
    have htext : ¬ isRelease σ.job.message →
        ∃ text, σ.job.message.value.get "orderId" = .ok (some (.str text)) := by
      intro hkind
      obtain ⟨text, hget, -⟩ := commands.reserve_order _ _ (hreserve hkind)
      exact ⟨text, hget⟩
    have hdone : processedAt s'.db key ≠ none := by
      intro hnone
      have hmarked := heffect.mem (Finmap.mem_insert.mpr (Or.inl rfl))
      exact Finmap.lookup_eq_none.mp hnone hmarked
    obtain ⟨hreservations, hevents⟩ :=
      h.effect_reserved horders htext hkey hmono hdone heffect
    exact ⟨hsound, hdisc, hmiss, hjobs, hreservations, hevents, haccounts⟩

theorem step (h : Fed commands stock s) {act : Act Delivery}
    (hbegin : ∀ i delivery, act = .begin i delivery → commands.MayArrive s delivery)
    (hs : s.step (Handler.serve handleInventoryCommand) act = some s') :
    Fed commands stock s' := by
  cases act with
  | begin i delivery => exact h.begin (hbegin i delivery rfl) hs
  | exec i => exact h.exec hs
  | commit i => exact h.commit hs
  | rollback i => exact h.rollback hs

end Fed

/--
**Stock accounting.**  However the commands of the orders interleave, fail and are
repeated, nothing is oversold, and every SKU has reserved exactly what its standing
reservations hold.
-/
theorem stock_accounting (commands : Commands) (db₀ : ServiceStore Row)
    (hnone : ∀ orderId, ownRow db₀ (.reservation orderId) = none)
    (hevents : ∀ id row orderId, outboxAt db₀ id = some row → ¬ ReservedEvent row orderId)
    (hopening : ∀ sku item, ownRow db₀ (.item sku) = some item →
      0 ≤ item.availableQuantity.val ∧ item.reservedQuantity.val = 0)
    {s : Server (ServiceRow Row) Error Unit Delivery}
    (hreach : Server.Reach (Handler.serve handleInventoryCommand) commands.MayArrive
      (Server.start db₀) s) (sku : String) :
    (ownRow s.db (.item sku) = none ↔ ownRow db₀ (.item sku) = none) ∧
    ∀ item opening, ownRow s.db (.item sku) = some item → ownRow db₀ (.item sku) = some opening →
      0 ≤ item.availableQuantity.val ∧ item.reservedQuantity.val = heldOf sku s.db ∧
        item.availableQuantity.val + item.reservedQuantity.val =
          opening.availableQuantity.val := by
  have hinv : Fed commands (fun sku => ownRow db₀ (.item sku)) s := by
    induction hreach with
    | start => exact .start hnone hevents
    | step _ hbegin hs ih => exact ih.step hbegin hs
  refine ⟨hinv.accounts.items sku, fun item opening hitem hopen => ?_⟩
  obtain ⟨havailable, hreserved⟩ := hopening sku opening hopen
  have hheld := hinv.accounts.reserved sku item opening hitem hopen
  have hconserved := hinv.accounts.conserved sku item opening hitem hopen
  refine ⟨hinv.accounts.available sku item opening hitem hopen havailable, ?_, ?_⟩
  · omega
  · omega

end CommercePlatform.Inventory

/-! ### Two orders for the same chairs -/

namespace CommercePlatform.Inventory.Chairs

open Js Txn

attribute [local instance] Platform.plain

def first : String := "3b241101-e2bb-4255-8caf-4136c566a911"

def second : String := "3b241101-e2bb-4255-8caf-4136c566a912"

def asksFor (orderId eventId : String) (quantity : ℕ) : KafkaMessage :=
  publishEvent topics.inventory routingKeys.reserveInventory
    (.obj [("eventType", .str "ReserveInventoryRequested"), ("orderId", .str orderId),
      ("itemSku", .str "SKU-CHAIR-001"), ("quantity", .num (.finite quantity)),
      ("totalAmount", .num (.finite 90)), ("currency", .str "USD")])
    [("eventId", .str eventId)]

/-- Two chairs for the first order, and three for the second one. -/
def two : KafkaMessage := asksFor first "3b241101-e2bb-4255-8caf-4136c566a921" 2

def three : KafkaMessage := asksFor second "3b241101-e2bb-4255-8caf-4136c566a922" 3

/-- The first order gives its chairs back. -/
def back : KafkaMessage :=
  publishEvent topics.inventory routingKeys.releaseInventory
    (.obj [("eventType", .str "ReleaseInventory"), ("orderId", .str first)])
    [("eventId", .str "3b241101-e2bb-4255-8caf-4136c566a923")]

theorem of_reserve {id : String} {m : KafkaMessage}
    (h : (if id = first then some two else if id = second then some three else none) = some m) :
    id = first ∧ m = two ∨ id = second ∧ m = three := by
  split at h
  · rename_i hid
    exact Or.inl ⟨hid, (Option.some.inj h).symm⟩
  · obtain ⟨hid, hm⟩ := (Option.ite_none_right_eq_some ..).mp h
    exact Or.inr ⟨hid, (Option.some.inj hm).symm⟩

theorem of_release {id : String} {m : KafkaMessage}
    (h : (if id = first then some back else none) = some m) : id = first ∧ m = back := by
  obtain ⟨hid, hm⟩ := (Option.ite_none_right_eq_some ..).mp h
  exact ⟨hid, (Option.some.inj hm).symm⟩

theorem not_isRelease {m : KafkaMessage}
    (h : m.value.get "eventType" = .ok (some (.str "ReserveInventoryRequested"))) :
    ¬ isRelease m := by
  rintro ⟨eventType, htype, hrelease⟩
  obtain rfl := Except.ok.inj (h.symm.trans htype)
  exact absurd hrelease (by decide)

def commands : Commands where
  reserve id := if id = first then some two else if id = second then some three else none
  release id := if id = first then some back else none
  reserve_order id m h := by
    rcases of_reserve h with ⟨rfl, rfl⟩ | ⟨rfl, rfl⟩
    · exact ⟨first, rfl, by decide⟩
    · exact ⟨second, rfl, by decide⟩
  reserve_kind id m h := by
    rcases of_reserve h with ⟨rfl, rfl⟩ | ⟨rfl, rfl⟩
    · exact not_isRelease rfl
    · exact not_isRelease rfl
  reserve_quantity id m h := by
    rcases of_reserve h with ⟨rfl, rfl⟩ | ⟨rfl, rfl⟩
    · exact ⟨2, by decide, by simp [two, asksFor, publishEvent, List.lookup_cons]⟩
    · exact ⟨3, by decide, by simp [three, asksFor, publishEvent, List.lookup_cons]⟩
  release_order id m h := by
    obtain ⟨rfl, rfl⟩ := of_release h
    decide
  release_kind id m h := by
    obtain ⟨rfl, rfl⟩ := of_release h
    exact ⟨_, rfl, by decide⟩
  reserve_event id m h := by
    rcases of_reserve h with ⟨rfl, rfl⟩ | ⟨rfl, rfl⟩
    · exact ⟨"3b241101-e2bb-4255-8caf-4136c566a921", by decide⟩
    · exact ⟨"3b241101-e2bb-4255-8caf-4136c566a922", by decide⟩
  release_event id m h := by
    obtain ⟨rfl, rfl⟩ := of_release h
    exact ⟨"3b241101-e2bb-4255-8caf-4136c566a923", by decide⟩

def stock : ServiceStore Row :=
  Finmap.singleton (.own (.item "SKU-CHAIR-001"))
    { availableQuantity := .ofNat 25 (by decide), reservedQuantity := .ofNat 0 (by decide) }

def delivery (message : KafkaMessage) (eventId rowId : String) : Delivery :=
  { message := message, choices := { eventId := eventId, rowId := rowId, now := 1 } }

def firstAsks : Delivery :=
  delivery two "3b241101-e2bb-4255-8caf-4136c566a931" "3b241101-e2bb-4255-8caf-4136c566a941"

def secondAsks : Delivery :=
  delivery three "3b241101-e2bb-4255-8caf-4136c566a932" "3b241101-e2bb-4255-8caf-4136c566a942"

def firstGivesBack : Delivery :=
  delivery back "3b241101-e2bb-4255-8caf-4136c566a933" "3b241101-e2bb-4255-8caf-4136c566a943"

/--
The second order has to wait for the row that the first one moves; its attempt fails then, and is
repeated.
-/
def asking : List (Act Delivery) :=
  [.begin 1 firstAsks, .begin 2 secondAsks] ++ List.replicate 4 (.exec 1) ++
  List.replicate 2 (.exec 2) ++ List.replicate 6 (.exec 1) ++ [.commit 1] ++
  List.replicate 3 (.exec 2) ++ [.rollback 2, .begin 3 secondAsks] ++ List.replicate 4 (.exec 3)

/-- The first order gives its chairs back while the second one moves the row. -/
def givingBack : List (Act Delivery) :=
  List.replicate 2 (.exec 4) ++ List.replicate 6 (.exec 3) ++ [.commit 3] ++
  List.replicate 5 (.exec 4) ++ [.commit 4]

theorem lookup_stock {k : ServiceKey Key} {row : ServiceRow Row k} (h : stock.lookup k = some row) :
    k = .own (.item "SKU-CHAIR-001") :=
  (Finmap.mem_singleton _ _ _).mp (Finmap.mem_iff.mpr ⟨row, h⟩)

theorem exists_run : ∃ s₁ s₂ s row, Server.run (Handler.serve handleInventoryCommand) asking
      (Server.start stock) = some s₁ ∧
    outboxAt s₁.db "3b241101-e2bb-4255-8caf-4136c566a941" = some row ∧ ReservedEvent row first ∧
    s₁.step (Handler.serve handleInventoryCommand) (.begin 4 firstGivesBack) = some s₂ ∧
    Server.run (Handler.serve handleInventoryCommand) givingBack s₂ = some s ∧
    ((ownRow s.db (.item "SKU-CHAIR-001")).map fun item =>
      (item.availableQuantity.val, item.reservedQuantity.val)) = some (22, 3) := by
  have hout : ((Server.run (Handler.serve handleInventoryCommand) asking
      (Server.start stock)).any fun s₁ =>
        ((outboxAt s₁.db "3b241101-e2bb-4255-8caf-4136c566a941").any fun row =>
          row.routingKey = routingKeys.inventoryReserved && orderIdOf row.payload = some first) &&
        (s₁.step (Handler.serve handleInventoryCommand) (.begin 4 firstGivesBack)).any fun s₂ =>
          (Server.run (Handler.serve handleInventoryCommand) givingBack s₂).any fun s =>
            ((ownRow s.db (.item "SKU-CHAIR-001")).map fun item =>
              (item.availableQuantity.val, item.reservedQuantity.val)) = some (22, 3)) = true := by
    decide +kernel
  obtain ⟨s₁, hs₁, hout⟩ := (Option.any_eq_true _ _).mp hout
  obtain ⟨hrow, hout⟩ := Bool.and_eq_true_iff.mp hout
  obtain ⟨row, hrow, hevent⟩ := (Option.any_eq_true _ _).mp hrow
  obtain ⟨s₂, hs₂, hout⟩ := (Option.any_eq_true _ _).mp hout
  obtain ⟨s, hs, hchairs⟩ := (Option.any_eq_true _ _).mp hout
  exact ⟨s₁, s₂, s, row, hs₁, hrow, by simpa [ReservedEvent] using hevent, hs₂, hs,
    of_decide_eq_true hchairs⟩

theorem accounted : ∃ s, ((ownRow s.db (.item "SKU-CHAIR-001")).map fun item =>
      (item.availableQuantity.val, item.reservedQuantity.val)) = some (22, 3) ∧
    Server.Reach (Handler.serve handleInventoryCommand) commands.MayArrive (Server.start stock) s ∧
    (ownRow s.db (.item "SKU-CHAIR-001") = none ↔ ownRow stock (.item "SKU-CHAIR-001") = none) ∧
    ∀ item opening, ownRow s.db (.item "SKU-CHAIR-001") = some item →
      ownRow stock (.item "SKU-CHAIR-001") = some opening →
      0 ≤ item.availableQuantity.val ∧ item.reservedQuantity.val = heldOf "SKU-CHAIR-001" s.db ∧
        item.availableQuantity.val + item.reservedQuantity.val =
          opening.availableQuantity.val := by
  obtain ⟨s₁, s₂, s, row, hs₁, hrow, hevent, hs₂, hs, hchairs⟩ := exists_run
  have hreach : Server.Reach (Handler.serve handleInventoryCommand) commands.MayArrive
      (Server.start stock) s := by
    have hasked : Server.Reach (Handler.serve handleInventoryCommand) commands.MayArrive
        (Server.start stock) s₁ := by
      refine .of_run .start (fun i job hmem s => ?_) hs₁
      have hjob : job = firstAsks ∨ job = secondAsks := by
        have hcases : i = 1 ∧ job = firstAsks ∨ i = 2 ∧ job = secondAsks ∨
            i = 3 ∧ job = secondAsks := by simpa [asking] using hmem
        rcases hcases with ⟨-, rfl⟩ | ⟨-, rfl⟩ | ⟨-, rfl⟩
        · exact Or.inl rfl
        · exact Or.inr rfl
        · exact Or.inr rfl
      rcases hjob with rfl | rfl
      · exact Or.inl ⟨first, rfl⟩
      · exact Or.inl ⟨second, rfl⟩
    have hback : Server.Reach (Handler.serve handleInventoryCommand) commands.MayArrive
        (Server.start stock) s₂ := by
      refine hasked.step (fun i job heq => ?_) hs₂
      obtain ⟨rfl, rfl⟩ := Act.begin.inj heq
      exact Or.inr ⟨first, rfl, _, row, hrow, hevent⟩
    exact .of_run hback (by simp [givingBack]) hs
  refine ⟨s, hchairs, hreach, stock_accounting commands stock ?_ ?_ ?_ hreach _⟩
  · intro o
    cases hrow : ownRow stock (.reservation o) with
    | none => rfl
    | some row => simpa using lookup_stock hrow
  · intro id row o hrow
    simpa using lookup_stock hrow
  · intro sku item hitem
    obtain rfl : sku = "SKU-CHAIR-001" := by simpa using lookup_stock hitem
    obtain rfl := Option.some.inj (hitem.symm.trans (Finmap.lookup_singleton_eq ..))
    exact ⟨by decide, rfl⟩

end CommercePlatform.Inventory.Chairs
