/-
The events of a saga in the words of the services.

Everything an event says is settled by the order it is about: the call that placed it
and its identifier.  `envelope` gives, for each kind, what its producer makes of them;
`Describes` ties a row of an outbox to an event, and `Announces` a message.
-/
import CommercePlatform.Saga.Phase
import CommercePlatform.Orders.Effects
import CommercePlatform.Service.Outbox

namespace CommercePlatform

open Js Txn

/-! ### Payloads that the database stores as they are -/

/-- Stored and read back, the value is the same. -/
def Storable (value : Json) : Prop := jsonb value = .ok value

theorem textIn_self {text : String} (h : '\x00' ∉ text.toList) : textIn text = .ok text := by
  simp [textIn, h]

theorem textIn_ok {text s : String} (h : textIn text = .ok s) : '\x00' ∉ text.toList := by
  unfold textIn at h
  split at h
  · simp at h
  · assumption

theorem storable_str {text : String} (h : '\x00' ∉ text.toList) : Storable (.str text) := by
  simp [Storable, jsonb, textIn_self h, Except.map]

theorem storable_finite (q : ℚ) : Storable (.num (.finite q)) := by
  simp [Storable, jsonb]

theorem jsonbFields_self {fields : List (String × Json)}
    (h : ∀ field ∈ fields, '\x00' ∉ field.1.toList ∧ Storable field.2) :
    jsonbFields fields = .ok fields := by
  induction fields with
  | nil => simp [jsonbFields]
  | cons field rest ih =>
      obtain ⟨key, value⟩ := field
      have hfirst := h (key, value) (by simp)
      have hrest := ih fun field hfield => h field (by simp [hfield])
      have hvalue : jsonb value = .ok value := hfirst.2
      simp [jsonbFields, textIn_self hfirst.1, hvalue, hrest, bind, Except.bind, pure, Except.pure]

/-- Headers are texts, which are stored as they are if at all. -/
theorem jsonbFields_texts {fields : List (String × String)} {fields' : List (String × Json)}
    (h : jsonbFields (fields.map fun field => (field.1, .str field.2)) = .ok fields') :
    fields' = fields.map fun field => (field.1, .str field.2) := by
  induction fields generalizing fields' with
  | nil =>
      simp only [List.map_nil, jsonbFields, Except.ok.injEq] at h
      rw [← h]
      rfl
  | cons field rest ih =>
      obtain ⟨key, hkey, h⟩ := bind_eq_ok.mp h
      obtain ⟨value, hvalue, h⟩ := bind_eq_ok.mp h
      obtain ⟨rest', hrest, h⟩ := bind_eq_ok.mp h
      obtain rfl := Except.ok.inj h
      obtain ⟨text, htext, rfl⟩ := map_eq_ok.mp hvalue
      rw [textIn_eq_ok hkey, textIn_eq_ok htext, ih hrest]
      rfl

/-! ### Headers of an event -/

/-- The headers of an event, as texts. -/
def eventHeaders (eventId : String) (correlationId : Option String) : List (String × String) :=
  ("eventId", eventId) ::
    match correlationId with
    | none => []
    | some id => if id = "" then [] else [("correlationId", id)]

theorem eventEnvelope_headers_defined (eventId routingKey : String) (payload : Fields)
    (correlationId : Option String) :
    (eventEnvelope eventId routingKey payload correlationId).headers.defined =
      (eventHeaders eventId correlationId).map fun field => (field.1, .str field.2) := by
  cases correlationId with
  | none => rfl
  | some id =>
      by_cases hid : id = ""
      · simp [eventEnvelope, eventHeaders, hid, Fields.defined]
      · simp [eventEnvelope, eventHeaders, hid, Fields.defined]

/-- The headers that a row with the headers of an event is published with. -/
theorem message_headers {row : OutboxRow} {eventId : String} {correlationId : Option String}
    (h : row.headers = (eventHeaders eventId correlationId).map fun field => (field.1, .str field.2)) :
    row.message.headers = ("routingKey", row.routingKey) :: eventHeaders eventId correlationId := by
  have hkeys : row.headers.map Prod.fst = (eventHeaders eventId correlationId).map Prod.fst := by
    rw [h, List.map_map]
    rfl
  have hcases : (eventHeaders eventId correlationId).map Prod.fst = ["eventId"] ∨
      (eventHeaders eventId correlationId).map Prod.fst = ["eventId", "correlationId"] := by
    unfold eventHeaders
    cases correlationId with
    | none => exact Or.inl rfl
    | some id =>
        by_cases hid : id = ""
        · simp [hid]
        · simp [hid]
  have hheaders : row.message.headers = _ := publishEvent_headers row.topic row.routingKey row.payload
    (by rw [hkeys]; rcases hcases with hc | hc <;> simp [hc])
    (by rw [hkeys]; rcases hcases with hc | hc <;> simp [hc])
  rw [hheaders, h, List.map_map]
  congr 1
  conv_rhs => rw [← List.map_id (eventHeaders eventId correlationId)]
  refine List.map_congr_left fun field _ => ?_
  simp [Json.toString]

theorem textParam_str [Platform] {text : String} (h : '\x00' ∉ text.toList) :
    textParam (some (.str text)) = .ok (some text) := by
  simp [textParam, textIn_self h, Except.map]

/-! ### Identifiers -/

theorem IsUuid.uuidParam [Platform] {id : String} (h : IsUuid id) :
    uuidParam (some (.str id)) = .ok (some id) := by
  simp [CommercePlatform.uuidParam, textIn_self h.text, h.canonical, bind, Except.bind]

theorem IsUuid.processedKey [Platform] {id : String} (h : IsUuid id) :
    processedKey (.str id) = .ok id := by
  simp [CommercePlatform.processedKey, textParam_str h.text, bind, Except.bind]

/-! ### The events of a stored order -/

/-- A call of `createOrder`, and the order it has stored. -/
structure Placed [Platform] where
  call : Orders.CreateOrderCall
  orderId : String
  row : Orders.OrderRow
  uuid : IsUuid orderId
  stored : row.Stores call

namespace Placed

variable [Platform] (o : Placed)

/-- The order as it appears in a payload. -/
def idValue : Option Json := some (.str o.orderId)

/-- What the producer of an event makes of the order. -/
def envelope (kind : EventKind) (eventId : String) : EventEnvelope :=
  match kind with
  | .reserveRequested => Orders.reserveInventoryEvent o.call o.orderId eventId
  | .reserved =>
      Inventory.inventoryReserved o.idValue (some (.num o.call.body.totalAmount))
        (some (.str o.call.normalizedCurrency)) eventId
  | .rejected => Inventory.inventoryRejected o.idValue eventId
  | .paymentRequested =>
      Orders.processPaymentEvent o.idValue (some (.num o.call.body.totalAmount))
        (some (.str o.call.normalizedCurrency)) eventId none
  | .succeeded => Payments.paymentResult true o.idValue eventId
  | .failed => Payments.paymentResult false o.idValue eventId
  | .releaseRequested => Orders.releaseInventoryEvent o.idValue eventId none

/-- The payload of an event, which is stored as it is. -/
def payload (kind : EventKind) (eventId : String) : List (String × Json) :=
  (o.envelope kind eventId).payload.defined

/-- Only the first event of an order carries its correlation identifier. -/
def correlationId : EventKind → Option String
  | .reserveRequested => some o.call.correlationId
  | _ => none

theorem envelope_routingKey (kind : EventKind) (eventId : String) :
    (o.envelope kind eventId).routingKey = kind.routingKey := by
  cases kind <;> rfl

theorem envelope_headers (kind : EventKind) (eventId : String) :
    (o.envelope kind eventId).headers.defined =
      (eventHeaders eventId (o.correlationId kind)).map fun field => (field.1, .str field.2) := by
  cases kind <;> exact eventEnvelope_headers_defined _ _ _ _

section Payload

variable (kind : EventKind) (eventId : String)

theorem payload_orderId : (o.payload kind eventId).lookup "orderId" = some (.str o.orderId) := by
  cases kind <;> rfl

theorem payload_eventType :
    (o.payload kind eventId).lookup "eventType" = some (.str kind.eventType) := by
  cases kind <;> rfl

theorem payload_itemSku : (o.payload .reserveRequested eventId).lookup "itemSku" =
    some (.str o.call.body.itemSku) := rfl

theorem payload_quantity : (o.payload .reserveRequested eventId).lookup "quantity" =
    some (.num (.finite o.call.body.quantity)) := rfl

theorem payload_totalAmount (h : kind = .reserveRequested ∨ kind = .reserved) :
    (o.payload kind eventId).lookup "totalAmount" = some (.num o.call.body.totalAmount) := by
  rcases h with rfl | rfl <;> rfl

theorem payload_currency
    (h : kind = .reserveRequested ∨ kind = .reserved ∨ kind = .paymentRequested) :
    (o.payload kind eventId).lookup "currency" = some (.str o.call.normalizedCurrency) := by
  rcases h with rfl | rfl | rfl <;> rfl

theorem payload_amount : (o.payload .paymentRequested eventId).lookup "amount" =
    some (.num o.call.body.totalAmount) := rfl

theorem payload_reason_rejected : (o.payload .rejected eventId).lookup "reason" =
    some (.str "Insufficient inventory") := rfl

theorem payload_reason_failed : (o.payload .failed eventId).lookup "reason" =
    some (.str "Payment authorization failed") := rfl

end Payload

theorem currency_text : '\x00' ∉ o.call.normalizedCurrency.toList := textIn_ok o.stored.currency

theorem amount_storable : Storable (.num o.call.body.totalAmount) := by
  obtain ⟨q, hq⟩ := o.stored.finite
  rw [hq]
  exact storable_finite q

theorem payload_eq (kind : EventKind) (eventId : String) :
    o.payload kind eventId =
      ("eventType", .str kind.eventType) :: ("orderId", .str o.orderId) ::
        (match kind with
        | .reserveRequested => [
            ("userId", .str o.call.userSub),
            ("itemSku", .str o.call.body.itemSku),
            ("quantity", .num (.finite o.call.body.quantity)),
            ("totalAmount", .num o.call.body.totalAmount),
            ("currency", .str o.call.normalizedCurrency)]
        | .reserved => [
            ("totalAmount", .num o.call.body.totalAmount),
            ("currency", .str o.call.normalizedCurrency)]
        | .rejected => [("reason", .str "Insufficient inventory")]
        | .paymentRequested => [
            ("amount", .num o.call.body.totalAmount),
            ("currency", .str o.call.normalizedCurrency)]
        | .succeeded => []
        | .failed => [("reason", .str "Payment authorization failed")]
        | .releaseRequested => []) ++ [("eventId", .str eventId)] := by
  cases kind <;> rfl

/-- Nothing in the payload of an event is changed by storing it. -/
theorem payload_stored (kind : EventKind) {eventId : String} (h : '\x00' ∉ eventId.toList) :
    jsonb (.obj (o.payload kind eventId)) = .ok (.obj (o.payload kind eventId)) := by
  have hid := storable_str o.uuid.text
  have hevent := storable_str h
  have huser := storable_str (textIn_ok o.stored.userId)
  have hsku := storable_str (textIn_ok o.stored.itemSku)
  have hcurrency := storable_str o.currency_text
  have hquantity := storable_finite o.call.body.quantity
  have hamount := o.amount_storable
  have htype : Storable (.str kind.eventType) := storable_str (by cases kind <;> decide)
  have hstock : Storable (.str "Insufficient inventory") := storable_str (by decide)
  have hauth : Storable (.str "Payment authorization failed") := storable_str (by decide)
  have hfields : ∀ field ∈ o.payload kind eventId,
      '\x00' ∉ field.1.toList ∧ Storable field.2 := by
    rw [payload_eq]
    cases kind <;> simp [hid, hevent, huser, hsku, hcurrency, hquantity, hamount, htype, hstock, hauth]
  simp [jsonb, jsonbFields_self hfields, Except.map]

/-! ### Rows and messages -/

/-- The row of an outbox is the event. -/
structure Describes (kind : EventKind) (eventId : String) (row : OutboxRow) : Prop where
  topic : row.topic = kind.topic
  routingKey : row.routingKey = kind.routingKey
  payload : row.payload = .obj (o.payload kind eventId)
  headers : row.headers =
    (eventHeaders eventId (o.correlationId kind)).map fun field => (field.1, .str field.2)

/-- The message is the event. -/
structure Announces (kind : EventKind) (eventId : String) (message : KafkaMessage) : Prop where
  topic : message.topic = kind.topic
  value : message.value = .obj (o.payload kind eventId)
  headers : message.headers =
    ("routingKey", kind.routingKey) :: eventHeaders eventId (o.correlationId kind)

variable {o} {kind : EventKind} {eventId : String}

theorem Describes.announces {row : OutboxRow} (h : o.Describes kind eventId row) :
    o.Announces kind eventId row.message where
  topic := h.topic
  value := h.payload
  headers := by rw [message_headers h.headers, h.routingKey]

/-- What an insert of the event leaves is the event. -/
theorem describes_of_outboxRow {choices : Choices} {id : String} {row : OutboxRow}
    (hevent : IsUuid choices.eventId) (hrow : IsUuid choices.rowId)
    (h : outboxRow choices kind.topic (o.envelope kind choices.eventId) = .ok (id, row)) :
    id = choices.rowId ∧ o.Describes kind choices.eventId row := by
  obtain ⟨hid, hpayload, hheaders, htopic, hrouting, -⟩ := outboxRow_eq_ok h
  rw [hrow.uuidParam] at hid
  have hstored : jsonb (.obj (o.envelope kind choices.eventId).payload.defined) = _ :=
    o.payload_stored kind hevent.text
  rw [hstored] at hpayload
  rw [envelope_headers] at hheaders
  refine ⟨(Option.some.inj (Except.ok.inj hid)).symm, htopic, ?_, ?_, jsonbFields_texts hheaders⟩
  · rw [hrouting, envelope_routingKey]
  · exact (Except.ok.inj hpayload).symm

/-- Any event but the first can be inserted. -/
theorem outboxRow_envelope {choices : Choices} (hevent : IsUuid choices.eventId)
    (hrow : IsUuid choices.rowId) (hkind : kind ≠ .reserveRequested) :
    ∃ row, outboxRow choices kind.topic (o.envelope kind choices.eventId) =
      .ok (choices.rowId, row) := by
  have hstored : jsonb (.obj (o.envelope kind choices.eventId).payload.defined) = _ :=
    o.payload_stored kind hevent.text
  have hcorrelation : o.correlationId kind = none := by
    cases kind <;> first | rfl | exact absurd rfl hkind
  have hheaders : jsonbFields (o.envelope kind choices.eventId).headers.defined =
      .ok [("eventId", .str choices.eventId)] := by
    rw [envelope_headers, hcorrelation]
    refine jsonbFields_self fun field hfield => ?_
    have heq : field = ("eventId", .str choices.eventId) := List.mem_singleton.mp hfield
    have hname : '\x00' ∉ "eventId".toList := by decide
    rw [heq]
    exact ⟨hname, storable_str hevent.text⟩
  have htopic : textIn kind.topic = .ok kind.topic := textIn_self (by cases kind <;> decide)
  have hrouting : textIn (o.envelope kind choices.eventId).routingKey = .ok kind.routingKey := by
    rw [envelope_routingKey]
    exact textIn_self (by cases kind <;> decide)
  simp [outboxRow, hrow.uuidParam, htopic, hrouting, hstored, hheaders, bind, Except.bind,
    pure, Except.pure]

namespace Announces

variable {message : KafkaMessage} (h : o.Announces kind eventId message)

include h

theorem get (name : String) :
    message.value.get name = .ok ((o.payload kind eventId).lookup name) := by
  rw [h.value, Json.get_obj]

theorem header_eventId : message.header "eventId" = some eventId := by
  rw [KafkaMessage.header, h.headers]
  rfl

theorem header_routingKey : message.header "routingKey" = some kind.routingKey := by
  rw [KafkaMessage.header, h.headers]
  rfl

theorem header_correlationId (hkind : kind ≠ .reserveRequested) :
    message.header "correlationId" = none := by
  have hnone : o.correlationId kind = none := by
    cases kind <;> first | rfl | exact absurd rfl hkind
  rw [KafkaMessage.header, h.headers, hnone]
  rfl

theorem requireEventId (hid : eventId ≠ "") : requireEventId message = .ok (.str eventId) := by
  unfold CommercePlatform.requireEventId consumedEventId
  rw [h.header_eventId]
  simp [hid, bind, Except.bind]

theorem orderIdOf : orderIdOf message.value = some o.orderId :=
  orderIdOf_eq (by rw [h.get, payload_orderId]) (o.uuid.uuidParam)

theorem texts : textIn message.topic = .ok kind.topic ∧
    textIn (consumedRoutingKey message) = .ok kind.routingKey := by
  rw [h.topic, consumedRoutingKey, h.header_routingKey]
  exact ⟨textIn_self (by cases kind <;> decide), textIn_self (by cases kind <;> decide)⟩

/-- The message goes to the consumer of the event, and to no other group. -/
theorem accepts_iff (service : Service) :
    service.group.accepts message = true ↔ service = kind.consumer := by
  rw [← kind.accepted_iff, ConsumerGroup.accepts, h.topic, h.header_routingKey]
  have hempty : service.group.routingKeys.isEmpty = false := by cases service <;> rfl
  have hkey : (kind.routingKey != "") = true := by cases kind <;> decide
  simp [hempty, hkey]

end Announces

theorem Announces.eventKey {message : KafkaMessage} (h : o.Announces kind eventId message)
    (hid : IsUuid eventId) : eventKey message = some eventId :=
  eventKey_eq (h.requireEventId hid.nonempty) (hid.processedKey)

/-- A message is one event only. -/
theorem Announces.unique {message : KafkaMessage} {o' : Placed} {kind' : EventKind}
    {eventId' : String} (h : o.Announces kind eventId message)
    (h' : o'.Announces kind' eventId' message) :
    kind' = kind ∧ eventId' = eventId ∧ o'.orderId = o.orderId := by
  refine ⟨?_, ?_, ?_⟩
  · have htype := (h.get "eventType").symm.trans (h'.get "eventType")
    rw [payload_eventType, payload_eventType] at htype
    refine EventKind.eventType_injective ?_
    simpa [eq_comm] using htype
  · exact Option.some.inj (h'.header_eventId.symm.trans h.header_eventId)
  · exact Option.some.inj (h'.orderIdOf.symm.trans h.orderIdOf)

end Placed

end CommercePlatform
