/-
Events as Kafka carries them.

The handlers get what `JSON.parse` makes of the bytes of an event.  All that is in an
event is text, but for the quantity and the amount, which come from the body of a request:
they are numbers that the language has if the body was itself read from JSON.
-/
import CommercePlatform.Edge.Controllers
import CommercePlatform.Saga.Agreement
import CommercePlatform.Wire

namespace CommercePlatform

open Js Txn

/-- The body is what the schema makes of a JSON text. -/
def OrderCreateInput.Parsed (body : OrderCreateInput) : Prop :=
  ∃ text sent, (Value.parse text).bind Value.toJson = some sent ∧ orderCreateSchema sent = some body

theorem mem_of_lookup {α β : Type} [BEq α] [LawfulBEq α] {fields : List (α × β)} {name : α}
    {value : β} (h : fields.lookup name = some value) : (name, value) ∈ fields := by
  obtain ⟨before, after, rfl, -⟩ := List.lookup_eq_some_iff.mp h
  simp

namespace OrderCreateInput.Parsed

variable {body : OrderCreateInput}

theorem number (h : body.Parsed) (name : String) {q : ℚ}
    (hlookup : ∀ fields, orderCreateSchema (.obj fields) = some body →
      fields.lookup name = some (.num (.finite q))) : (Number.finite q).Written := by
  obtain ⟨text, sent, hread, hschema⟩ := h
  obtain ⟨fields, rfl, -⟩ := orderCreateSchema_eq_some hschema
  obtain ⟨value, -, hjson⟩ := Option.bind_eq_some_iff.mp hread
  cases value with
  | obj read =>
      obtain ⟨fields', hfields, heq⟩ := Option.map_eq_some_iff.mp hjson
      obtain rfl := Json.obj.inj heq
      obtain ⟨d, hd⟩ := Value.num_of_toJsonFields hfields (mem_of_lookup (hlookup fields' hschema))
      exact Double.written hd
  | null => simp [Value.toJson] at hjson
  | bool b => simp [Value.toJson] at hjson
  | num n => simp [Value.toJson] at hjson
  | str s => simp [Value.toJson] at hjson
  | arr items => simp [Value.toJson] at hjson

theorem quantity (h : body.Parsed) : (Number.finite body.quantity).Written := by
  refine h.number "quantity" fun fields hschema => ?_
  obtain ⟨_, heq, -, hquantity, -⟩ := orderCreateSchema_eq_some hschema
  exact Json.obj.inj heq ▸ hquantity

theorem amount (h : body.Parsed) {q : ℚ} (hq : body.totalAmount = .finite q) :
    (Number.finite q).Written := by
  refine h.number "totalAmount" fun fields hschema => ?_
  obtain ⟨_, heq, -, -, hamount, -⟩ := orderCreateSchema_eq_some hschema
  exact hq ▸ Json.obj.inj heq ▸ hamount

end OrderCreateInput.Parsed

/-- A row of an outbox, as it is sent. -/
def OutboxRow.record (row : OutboxRow) : KafkaRecord :=
  publishRecord row.topic row.routingKey row.payload row.headers

variable [Platform]

/-- An event of an order from a parsed body is read as it was written. -/
theorem Placed.payload_travels (o : Placed) (h : o.call.body.Parsed) (kind : EventKind)
    (eventId : String) : (Json.obj (o.payload kind eventId)).Travels := by
  obtain ⟨q, hq⟩ := o.stored.finite
  have hamount : (Json.num o.call.body.totalAmount).Travels := by
    rw [hq]
    exact h.amount hq
  have hquantity : (Json.num (.finite o.call.body.quantity)).Travels := h.quantity
  have hstr : ∀ s, (Json.str s).Travels := fun _ => trivial
  have hindex : ∀ name ∈ ["eventType", "orderId", "userId", "itemSku", "quantity", "totalAmount",
      "currency", "amount", "reason", "eventId"], ¬ IsIndex name := by decide
  rw [payload_eq]
  refine ⟨?_, fun name hname => hindex name ?_, Json.travelFields_iff.mpr ?_⟩
  · cases kind <;> simp
  · cases kind <;> simp at hname ⊢ <;> tauto
  · cases kind <;> simp [hstr, hamount, hquantity]

/--
**Every event is read as it was written.**  Of a run in which all bodies come from JSON,
each row of an outbox is sent under the identifier of its order, and a group that reads
its topic gets the payload of the row if its filter wants the event, and never raises.
-/
theorem events_read_as_written (stock : ServiceStore Inventory.Row) (hstock : OnlyItems stock)
    {s : System} (hreach : System.Reach stock s)
    (hparsed : ∀ c call, .lookedUp c call ∈ s.orders.log → call.body.Parsed) {service : Service}
    {id : String} {row : OutboxRow} (hrow : s.outbox service id = some row) :
    row.record.read = some row.message ∧
    (∃ order, ownRow s.ordersDb (.order row.record.key) = some order) ∧
    ∀ reader : Service, reader.group.topics.contains row.record.topic = true →
      ∃ payload, payload.toJson = some row.payload ∧ reader.group.eachMessage row.record =
        if reader.group.accepts row.message then .handed payload else .filtered := by
  obtain ⟨sagas, owner, hlaw⟩ := Law.of_reach hstock hreach
  obtain ⟨o, saga, kind, hsaga, -, -, -, hdescribes⟩ := hlaw.event hrow
  obtain ⟨c, hended⟩ := hlaw.desk.placed o saga hsaga
  have hbody := hparsed c _ (hlaw.desk.ended c _ _ hended).1
  have hread : row.record.read = some row.message :=
    read_publishRecord row.topic row.routingKey
      (by rw [hdescribes.payload]; exact saga.payload_travels hbody kind _) row.headers
  refine ⟨hread, ?_, fun reader htopic => reader.group.eachMessage_of_read hread htopic⟩
  have hkey : row.record.key = saga.orderId := by
    show partitionKey row.routingKey row.payload = _
    rw [hdescribes.payload]
    simp only [partitionKey, saga.payload_orderId]
    rfl
  rw [hkey, hlaw.owned.keyed o saga hsaga]
  exact ⟨_, hlaw.orderRow hsaga⟩

end CommercePlatform

namespace CommercePlatform.Sale

open Js Txn

attribute [local instance] platform

/-- The request as it is sent. -/
def sent : Json := .obj [("itemSku", .str "SKU-CHAIR-001"), ("quantity", .num (.finite 2)),
  ("totalAmount", .num (.finite (4999 / 100))), ("currency", .str "usd")]

theorem sent_travels : sent.Travels := by
  have hquantity : Number.ofDecimal 2 = .finite 2 := by decide +kernel
  have hamount : Number.ofDecimal (4999 / 100) = .finite (4999 / 100) := by decide +kernel
  exact ⟨by decide, by decide, trivial, ⟨2, rfl, hquantity⟩, ⟨_, rfl, hamount⟩, trivial, trivial⟩

theorem parsed : body.Parsed :=
  ⟨_, sent, Json.read_stringify sent_travels, by decide +kernel⟩

theorem carried : ∃ s row, System.run acts (System.start stock) = some s ∧
    s.outbox .orders (uuid 3) = some row ∧ row.record.read = some row.message ∧
    (∃ order, ownRow s.ordersDb (.order row.record.key) = some order) ∧
    ∀ reader : Service, reader.group.topics.contains row.record.topic = true →
      ∃ payload, payload.toJson = some row.payload ∧ reader.group.eachMessage row.record =
        if reader.group.accepts row.message then .handed payload else .filtered := by
  have h : ((System.run acts (System.start stock)).any fun s => (s.outbox .orders (uuid 3)).isSome &&
      s.orders.log = [.lookedUp 1 call, .ended 1 call (.answered (.created (uuid 1)))]) = true := by
    decide +kernel
  obtain ⟨s, hs, hrun⟩ := (Option.any_eq_true _ _).mp h
  obtain ⟨hsome, hlog⟩ := (Bool.and_eq_true ..).mp hrun
  obtain ⟨row, hrow⟩ := Option.isSome_iff_exists.mp hsome
  have hparsed : ∀ c call', .lookedUp c call' ∈ s.orders.log → call'.body.Parsed := by
    intro c call' hmem
    rw [of_decide_eq_true hlog] at hmem
    obtain ⟨-, rfl⟩ : c = 1 ∧ call' = call := by simpa using hmem
    exact parsed
  exact ⟨s, row, hs, hrow,
    events_read_as_written stock onlyItems (System.steps_of_run hs) hparsed hrow⟩

end CommercePlatform.Sale
