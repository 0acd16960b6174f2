/-
What the fingerprint of an order tells.

`createOrder` stores a digest of the body with the order, and a key that comes again with another
digest is a conflict.  The body it digests is not what the client sent: the order service, and the
BFF and the gateway where they are in between, each parse what they get and keep what the schema
knows, and each but the last writes it again.

A body here is the text of the request.  Its strings may have any code units and its numbers any
spelling.  The upper case of a string and the digest of a text are those of the runtime, whatever
they are.
-/
import CommercePlatform.Js.Parse
import CommercePlatform.Orders.Service

namespace CommercePlatform.Raw

open Js

/-! ### The schema -/

/-- The name of a property. -/
def key (name : String) : Utf16 := Utf16.ofText name.toList

/-- A request body that `orderCreateSchema` accepts, with the strings of the language. -/
structure OrderCreateInput where
  itemSku : Utf16
  quantity : Double
  totalAmount : Double
  currency : Utf16
  itemSku_min : 3 ≤ itemSku.length
  quantity_int : quantity.value.isInteger = true
  quantity_pos : (Number.finite 0).lt quantity.value = true
  totalAmount_pos : (Number.finite 0).lt totalAmount.value = true
  currency_length : currency.length = 3
  deriving DecidableEq

/-- `orderCreateSchema`. -/
def orderCreateSchema : Value → Option OrderCreateInput
  | .obj fields =>
      match fields.lookup (key "itemSku"), fields.lookup (key "quantity"),
        fields.lookup (key "totalAmount"), fields.lookup (key "currency") with
      | some (.str itemSku), some (.num quantity), some (.num totalAmount), some (.str currency) =>
          if h : 3 ≤ itemSku.length ∧
              (quantity.value.isInteger = true ∧ (Number.finite 0).lt quantity.value = true) ∧
              (Number.finite 0).lt totalAmount.value = true ∧ currency.length = 3 then
            some {
              itemSku := itemSku
              quantity := quantity
              totalAmount := totalAmount
              currency := currency
              itemSku_min := h.1
              quantity_int := h.2.1.1
              quantity_pos := h.2.1.2
              totalAmount_pos := h.2.2.1
              currency_length := h.2.2.2 }
          else none
      | _, _, _, _ => none
  | _ => none

/-- The properties of the body, in the order of the schema. -/
def OrderCreateInput.fields (body : OrderCreateInput) : List (Utf16 × Value) :=
  [(key "itemSku", .str body.itemSku), (key "quantity", .num body.quantity),
    (key "totalAmount", .num body.totalAmount), (key "currency", .str body.currency)]

/-! ### The hops -/

/-- `orderCreateSchema.parse(request.body)`. -/
def accepted (raw : List Char) : Option OrderCreateInput :=
  (Value.parse raw).bind orderCreateSchema

/-- What the BFF and the gateway send on: `JSON.stringify(body)`. -/
def forwarded (raw : List Char) : Option (List Char) :=
  (accepted raw).map fun body => Value.stringify (.obj body.fields)

/-- Where the client sends a request. -/
inductive Route where
  | orderService
  /-- From the BFF it goes to the gateway and from there to the order service. -/
  | bff
  deriving DecidableEq

/-- What arrives at the order service. -/
def Route.arrives : Route → List Char → Option (List Char)
  | orderService, raw => some raw
  | bff, raw => (forwarded raw).bind forwarded

/-! ### The digest -/

/-- What the runtime does to a string and to a text. -/
structure Runtime where
  /-- `text.toUpperCase()`. -/
  toUpperCase : Utf16 → Utf16
  /-- The hexadecimal SHA-256 digest of a text. -/
  sha256 : List Char → String

namespace Runtime

variable (runtime : Runtime)

def requestHash (body : Value) : String := runtime.sha256 body.stringify

/-- `{ ...input.body, currency: normalizedCurrency }`. -/
def normalizedBody (body : OrderCreateInput) : Value :=
  .obj (Value.setField body.fields (key "currency") (.str (runtime.toUpperCase body.currency)))

def bodyHash (body : OrderCreateInput) : String := runtime.requestHash (runtime.normalizedBody body)

/-- The `request_hash` of an order that is sent on a route. -/
def fingerprint (route : Route) (raw : List Char) : Option String :=
  ((route.arrives raw).bind accepted).map runtime.bodyHash

end Runtime

/-! ### The hops change nothing -/

section

variable {body body₁ body₂ : OrderCreateInput} {raw : List Char}

theorem quantity_finite (body : OrderCreateInput) : ∃ q, body.quantity.value = .finite q := by
  have hint := body.quantity_int
  cases hvalue : body.quantity.value with
  | finite q => exact ⟨q, rfl⟩
  | nan => simp [hvalue, Number.isInteger] at hint
  | negInf => simp [hvalue, Number.isInteger] at hint
  | posInf => simp [hvalue, Number.isInteger] at hint

/-- The names of the schema differ. -/
theorem names_nodup :
    [key "itemSku", key "quantity", key "totalAmount", key "currency"].Nodup := by
  decide +kernel

theorem lookup_fields (body : OrderCreateInput) :
    body.fields.lookup (key "itemSku") = some (.str body.itemSku) ∧
    body.fields.lookup (key "quantity") = some (.num body.quantity) ∧
    body.fields.lookup (key "totalAmount") = some (.num body.totalAmount) ∧
    body.fields.lookup (key "currency") = some (.str body.currency) := by
  have hnames := names_nodup
  simp only [List.nodup_cons, List.mem_cons, List.not_mem_nil, or_false, not_or] at hnames
  obtain ⟨⟨hqs, has, hcs⟩, ⟨haq, hcq⟩, hca, -⟩ := hnames
  unfold OrderCreateInput.fields
  simp only [List.lookup_cons, beq_self_eq_true, beq_false_of_ne (Ne.symm hqs),
    beq_false_of_ne (Ne.symm has), beq_false_of_ne (Ne.symm hcs), beq_false_of_ne (Ne.symm haq),
    beq_false_of_ne (Ne.symm hcq), beq_false_of_ne (Ne.symm hca), and_self]

/-- What the schema returns it accepts again, as it is. -/
theorem orderCreateSchema_fields (body : OrderCreateInput) :
    orderCreateSchema (.obj body.fields) = some body := by
  obtain ⟨hsku, hquantity, hamount, hcurrency⟩ := lookup_fields body
  unfold orderCreateSchema
  simp only [hsku, hquantity, hamount, hcurrency]
  exact dif_pos ⟨body.itemSku_min, ⟨body.quantity_int, body.quantity_pos⟩, body.totalAmount_pos,
    body.currency_length⟩

theorem plain_fields (hfinite : ∃ q, body.totalAmount.value = .finite q) :
    (Value.obj body.fields).Plain :=
  ⟨names_nodup, trivial, quantity_finite body, hfinite, trivial, trivial⟩

/-- What is sent on is the body again. -/
theorem accepted_forwarded (h : accepted raw = some body)
    (hfinite : ∃ q, body.totalAmount.value = .finite q) :
    ∃ raw', forwarded raw = some raw' ∧ accepted raw' = some body := by
  refine ⟨Value.stringify (.obj body.fields), ?_, ?_⟩
  · unfold forwarded
    rw [h]
    rfl
  · unfold accepted
    rw [Value.parse_stringify _ (plain_fields hfinite)]
    exact orderCreateSchema_fields body

/-- **On every route the order service accepts the body that the client has sent.** -/
theorem accepted_arrives (h : accepted raw = some body)
    (hfinite : ∃ q, body.totalAmount.value = .finite q) (route : Route) :
    (route.arrives raw).bind accepted = some body := by
  cases route with
  | orderService => exact h
  | bff =>
      obtain ⟨raw', hforwarded, hbody⟩ := accepted_forwarded h hfinite
      obtain ⟨raw'', hforwarded', hbody'⟩ := accepted_forwarded hbody hfinite
      show ((forwarded raw).bind forwarded).bind accepted = some body
      rw [hforwarded, Option.bind_some, hforwarded', Option.bind_some, hbody']

end

/-! ### The digest tells the order -/

section

variable {body body₁ body₂ : OrderCreateInput} (runtime : Runtime)

/-- The upper case stands where the currency stood. -/
theorem normalizedBody_eq (body : OrderCreateInput) :
    runtime.normalizedBody body = .obj
      [(key "itemSku", .str body.itemSku), (key "quantity", .num body.quantity),
        (key "totalAmount", .num body.totalAmount),
        (key "currency", .str (runtime.toUpperCase body.currency))] := by
  have hnames := names_nodup
  simp only [List.nodup_cons, List.mem_cons, List.not_mem_nil, or_false, not_or] at hnames
  obtain ⟨⟨-, -, hsku⟩, ⟨-, hquantity⟩, hamount, -⟩ := hnames
  unfold Runtime.normalizedBody Value.setField OrderCreateInput.fields
  rw [if_pos (by simp)]
  simp only [List.map_cons, List.map_nil, if_neg hsku, if_neg hquantity, if_neg hamount, if_true]

theorem plain_normalizedBody (hfinite : ∃ q, body.totalAmount.value = .finite q) :
    (runtime.normalizedBody body).Plain := by
  rw [normalizedBody_eq]
  exact ⟨names_nodup, trivial, quantity_finite body, hfinite, trivial, trivial⟩

theorem normalizedBody_eq_iff :
    runtime.normalizedBody body₁ = runtime.normalizedBody body₂ ↔
      body₁.itemSku = body₂.itemSku ∧ body₁.quantity = body₂.quantity ∧
        body₁.totalAmount = body₂.totalAmount ∧
        runtime.toUpperCase body₁.currency = runtime.toUpperCase body₂.currency := by
  rw [normalizedBody_eq, normalizedBody_eq]
  simp

/--
**Two orders have one fingerprint just where they are for the same amount of the same goods in the
same currency**, however they are written and on whatever routes they come.
-/
theorem fingerprint_eq_iff {raw₁ raw₂ : List Char} (route₁ route₂ : Route)
    (h₁ : accepted raw₁ = some body₁) (h₂ : accepted raw₂ = some body₂)
    (hfinite₁ : ∃ q, body₁.totalAmount.value = .finite q)
    (hfinite₂ : ∃ q, body₂.totalAmount.value = .finite q)
    (hsha256 : runtime.sha256 (runtime.normalizedBody body₁).stringify =
        runtime.sha256 (runtime.normalizedBody body₂).stringify →
      (runtime.normalizedBody body₁).stringify = (runtime.normalizedBody body₂).stringify) :
    ∃ hash₁ hash₂, runtime.fingerprint route₁ raw₁ = some hash₁ ∧
      runtime.fingerprint route₂ raw₂ = some hash₂ ∧
      (hash₁ = hash₂ ↔ body₁.itemSku = body₂.itemSku ∧ body₁.quantity = body₂.quantity ∧
        body₁.totalAmount = body₂.totalAmount ∧
        runtime.toUpperCase body₁.currency = runtime.toUpperCase body₂.currency) := by
  refine ⟨runtime.bodyHash body₁, runtime.bodyHash body₂, ?_, ?_, ?_⟩
  · unfold Runtime.fingerprint
    rw [accepted_arrives h₁ hfinite₁]
    rfl
  · unfold Runtime.fingerprint
    rw [accepted_arrives h₂ hfinite₂]
    rfl
  · rw [← normalizedBody_eq_iff]
    constructor
    · intro hsame
      exact Value.stringify_injective (plain_normalizedBody runtime hfinite₁)
        (plain_normalizedBody runtime hfinite₂) (hsha256 hsame)
    · intro hsame
      exact congrArg runtime.requestHash hsame

end

namespace SameOrder

def digested : List Char :=
  ("\x7b\"itemSku\":\"SKU-1\",\"quantity\":2,\"totalAmount\":49.9,\"currency\":" ++
    "\"EUR\"\x7d").toList

/-- What Node.js does to code units of ASCII, and to the one text that is digested here. -/
def nodeJs : Runtime where
  toUpperCase s := s.map fun u => if 97 ≤ u ∧ u ≤ 122 then u - 32 else u
  sha256 text :=
    if text = digested then "c8bf0a16df9f43e590b97e7f6b931034ab2641d3a3b6b6dd40a7d93cac249b23"
    else ""

def plainly : List Char :=
  ("\x7b\"itemSku\":\"SKU-1\",\"quantity\":2,\"totalAmount\":49.90,\"currency\":" ++
    "\"eur\"\x7d").toList

/-- Another order of the properties and other spellings, with a property that nobody knows. -/
def fancily : List Char :=
  ("\x7b \"currency\": \"EUR\", \"note\": [\"\\ud800\", null], \"totalAmount\": 4.99e1,\n" ++
    "\"quantity\": 2.0, \"itemSku\": \"SKU\\u002d1\" \x7d").toList

def order (currency : String) (h : (key currency).length = 3) : OrderCreateInput where
  itemSku := key "SKU-1"
  quantity := Double.ofDecimal 2
  totalAmount := Double.ofDecimal (499 / 10)
  currency := key currency
  itemSku_min := by decide +kernel
  quantity_int := by decide +kernel
  quantity_pos := by decide +kernel
  totalAmount_pos := by decide +kernel
  currency_length := h

/-- One order, sent to the order service and sent through the BFF, has one fingerprint. -/
theorem one_fingerprint :
    ∃ hash, nodeJs.fingerprint .orderService plainly = some hash ∧
      nodeJs.fingerprint .bff fancily = some hash := by
  have hplainly : accepted plainly = some (order "eur" (by decide +kernel)) := by decide +kernel
  have hfancily : accepted fancily = some (order "EUR" (by decide +kernel)) := by decide +kernel
  obtain ⟨hash₁, hash₂, h₁, h₂, hsame⟩ :=
    fingerprint_eq_iff nodeJs .orderService .bff hplainly hfancily
      ⟨499 / 10, by decide +kernel⟩ ⟨499 / 10, by decide +kernel⟩ (fun _ => by decide +kernel)
  obtain rfl := hsame.mpr ⟨rfl, rfl, rfl, by decide +kernel⟩
  exact ⟨hash₁, h₁, h₂⟩

end SameOrder

/-! ### Texts -/

section

variable [Platform] {body : OrderCreateInput} {runtime : Runtime}

/-- The body is one of texts. -/
structure Spells (body : OrderCreateInput) (input : CommercePlatform.OrderCreateInput) : Prop where
  itemSku : body.itemSku = Utf16.ofText input.itemSku.toList
  quantity : body.quantity.value = .finite input.quantity
  totalAmount : body.totalAmount.value = input.totalAmount
  currency : body.currency = Utf16.ofText input.currency.toList

/-- The runtime does to texts what the platform does. -/
structure Runtime.Agrees (runtime : Runtime) : Prop where
  toUpperCase : ∀ text : String, runtime.toUpperCase (Utf16.ofText text.toList) =
    Utf16.ofText (Platform.toUpperCase text).toList
  sha256 : ∀ text : String, runtime.sha256 text.toList = Platform.sha256 text

omit [Platform] in
theorem quote_ofText (text : String) :
    Utf16.quote (Utf16.ofText text.toList) = (Json.quote text).toList := by
  unfold Utf16.quote Json.quote
  rw [Utf16.quoteBody_ofText, String.toList_ofList]

omit [Platform] in
theorem toList_field (name value : String) :
    (name ++ ":" ++ value).toList = name.toList ++ ':' :: value.toList := by
  simp

omit [Platform] in
theorem toList_record (a b c d : String) :
    ("\x7b" ++ ",".intercalate [a, b, c, d] ++ "\x7d").toList =
      '\x7b' :: (a.toList ++ ',' :: (b.toList ++ ',' :: (c.toList ++ ',' :: d.toList))) ++
        ['\x7d'] := by
  simp [String.intercalate_cons_cons]

/-- **Of texts the fingerprint is the one that `createOrder` computes.** -/
theorem bodyHash_of_spells (hagrees : runtime.Agrees) {call : Orders.CreateOrderCall}
    (hspells : Spells body call.body) : runtime.bodyHash body = call.bodyHash := by
  have hnormalized : call.normalizedBody = .obj
      [("itemSku", .str call.body.itemSku), ("quantity", .num (.finite call.body.quantity)),
        ("totalAmount", .num call.body.totalAmount),
        ("currency", .str call.normalizedCurrency)] := by
    simp [Orders.CreateOrderCall.normalizedBody, CommercePlatform.OrderCreateInput.toFields,
      Fields.set, Fields.defined]
  have htext : (runtime.normalizedBody body).stringify = call.normalizedBody.stringify.toList := by
    rw [normalizedBody_eq, hnormalized]
    simp only [Json.stringify, Json.stringifyFields, toList_record, toList_field]
    simp only [Value.stringify, Value.stringifyFields, key, quote_ofText, hspells.itemSku,
      hspells.quantity, hspells.totalAmount, hspells.currency, hagrees.toUpperCase]
    rfl
  show runtime.sha256 (runtime.normalizedBody body).stringify = _
  rw [htext, hagrees.sha256]
  rfl

end

end CommercePlatform.Raw
