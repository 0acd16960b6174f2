/-
The tokens that are stored encrypted (`packages/auth`).

`encryptSecret` writes three fields with dots between them: the iv, the tag and the data, in hex.
`decryptSecret` does not ask for that form.  It splits at every dot and takes the first three
fields; of each it reads what `Buffer.from(field, "hex")` makes of it; and the decipher takes any
iv and any length of a tag that the mode allows.  So it gives back what was written, and it also
takes other texts for what was written.  `accepted_texts` says which ones.

The cipher is a parameter.  The key is what SHA-256 makes of the configured one, so it has 32
bytes, and the iv is drawn, so it is a parameter of `encryptSecret`.
-/
import CommercePlatform.Js.Buffer
import CommercePlatform.Js.Value

namespace CommercePlatform

open Js

/-- `text.split(separator)`, for a separator of one character. -/
def Js.split (text : String) (separator : Char) : List String :=
  (text.toList.splitOn separator).map String.ofList

namespace Secrets

/-- What `encryptionKey` returns. -/
abbrev Key := { bytes : Bytes // bytes.length = 32 }

/-- What `crypto.randomBytes(12)` returns. -/
abbrev Nonce := { bytes : Bytes // bytes.length = 12 }

/-- The mode `aes-256-gcm`, without additional data. -/
structure Gcm where
  /-- What `update` and `final` make of a plaintext, for a key and an iv. -/
  encrypt : Key → Bytes → Bytes → Bytes
  /-- What `update` makes of the data. -/
  decrypt : Key → Bytes → Bytes → Bytes
  /-- The tag that belongs to the data. -/
  authTag : Key → Bytes → Bytes → Bytes
  /-- The lengths of an iv that `createDecipheriv` takes. -/
  ivLength : ℕ → Bool

/-- What the code relies on: data and plaintext determine each other, as in counter mode. -/
structure Gcm.Lawful (gcm : Gcm) : Prop where
  decrypt_encrypt : ∀ key iv plaintext, gcm.ivLength iv.length = true →
    gcm.decrypt key iv (gcm.encrypt key iv plaintext) = plaintext
  encrypt_decrypt : ∀ key iv data, gcm.ivLength iv.length = true →
    gcm.encrypt key iv (gcm.decrypt key iv data) = data
  authTag_length : ∀ key iv data, (gcm.authTag key iv data).length = 16
  ivLength_twelve : gcm.ivLength 12 = true

/-- The tags that `setAuthTag` takes, where `authTagLength` was not given. -/
def tagLength (n : ℕ) : Bool := n = 4 ∨ n = 8 ∨ (12 ≤ n ∧ n ≤ 16)

/-- Why a text is not decrypted. -/
inductive Undecipherable where
  /-- `Buffer.from(undefined, "hex")`. -/
  | notAString
  /-- `Invalid initialization vector`. -/
  | invalidIv
  /-- `Invalid authentication tag length`. -/
  | invalidTagLength (length : ℕ)
  /-- `Unsupported state or unable to authenticate data`. -/
  | unauthentic
  deriving DecidableEq, Repr

section

variable (gcm : Gcm) (key : Key)

/-- `encryptSecret`, with the iv that is drawn. -/
def encryptSecret (iv : Nonce) (value : String) : String :=
  let encrypted := gcm.encrypt key iv (Buffer.ofText value)
  let tag := gcm.authTag key iv encrypted
  ".".intercalate [Buffer.toHex iv, Buffer.toHex tag, Buffer.toHex encrypted]

/-- `Buffer.from(field, "hex")`, of a field that may be missing. -/
def fromHex : Option String → Except Undecipherable Bytes
  | none => .error .notAString
  | some field => .ok (Buffer.ofHex field)

/-- `createDecipheriv`, of an iv. -/
def createDecipheriv (iv : Bytes) : Except Undecipherable Unit :=
  if gcm.ivLength iv.length then .ok () else .error .invalidIv

def setAuthTag (tag : Bytes) : Except Undecipherable Unit :=
  if tagLength tag.length then .ok () else .error (.invalidTagLength tag.length)

/-- `decipher.final`: only the bytes that were given are compared. -/
def final (iv tag data : Bytes) : Except Undecipherable Unit :=
  if tag <+: gcm.authTag key iv data then .ok () else .error .unauthentic

def decryptSecret (ciphertext : String) : Except Undecipherable String := do
  let fields := split ciphertext '.'
  let iv ← fromHex fields[0]?
  createDecipheriv gcm iv
  let tag ← fromHex fields[1]?
  setAuthTag tag
  let data ← fromHex fields[2]?
  final gcm key iv tag data
  return Buffer.toText (gcm.decrypt key iv data)

end

/-! ### What is read of a text -/

/-- The first three fields of a text spell these bytes. -/
def Carries (text : String) (iv tag data : Bytes) : Prop :=
  ∃ ivHex tagHex dataHex rest, split text '.' = ivHex :: tagHex :: dataHex :: rest ∧
    Buffer.Spells ivHex.toList iv ∧ Buffer.Spells tagHex.toList tag ∧
    Buffer.Spells dataHex.toList data

theorem guard_eq_ok {b : Prop} [Decidable b] {e : Undecipherable} {u : Unit} :
    (if b then Except.ok () else Except.error e : Except Undecipherable Unit) = .ok u ↔ b := by
  by_cases h : b
  · simp [h]
  · simp [h]

theorem fromHex_eq_ok {field : Option String} {bytes : Bytes} :
    fromHex field = .ok bytes ↔ ∃ text, field = some text ∧ Buffer.Spells text.toList bytes := by
  cases field with
  | none => simp [fromHex]
  | some text => simp [fromHex, Buffer.spells_iff, Buffer.ofHex]

theorem carries_iff {text : String} {iv tag data : Bytes} :
    Carries text iv tag data ↔ fromHex (split text '.')[0]? = .ok iv ∧
      fromHex (split text '.')[1]? = .ok tag ∧ fromHex (split text '.')[2]? = .ok data := by
  constructor
  · rintro ⟨ivHex, tagHex, dataHex, rest, hsplit, hiv, htag, hdata⟩
    rw [hsplit]
    exact ⟨fromHex_eq_ok.mpr ⟨ivHex, rfl, hiv⟩, fromHex_eq_ok.mpr ⟨tagHex, rfl, htag⟩,
      fromHex_eq_ok.mpr ⟨dataHex, rfl, hdata⟩⟩
  · rintro ⟨hiv, htag, hdata⟩
    obtain ⟨ivHex, hfirst, hiv⟩ := fromHex_eq_ok.mp hiv
    obtain ⟨tagHex, hsecond, htag⟩ := fromHex_eq_ok.mp htag
    obtain ⟨dataHex, hthird, hdata⟩ := fromHex_eq_ok.mp hdata
    match hsplit : split text '.', hfirst, hsecond, hthird with
    | a :: b :: c :: rest, hfirst, hsecond, hthird =>
        obtain rfl := Option.some.inj hfirst
        obtain rfl := Option.some.inj hsecond
        obtain rfl := Option.some.inj hthird
        exact ⟨a, b, c, rest, hsplit, hiv, htag, hdata⟩

/-- What is read of a text is one thing. -/
theorem Carries.unique {text : String} {iv tag data iv' tag' data' : Bytes}
    (h : Carries text iv tag data) (h' : Carries text iv' tag' data') :
    iv = iv' ∧ tag = tag' ∧ data = data' := by
  obtain ⟨hiv, htag, hdata⟩ := carries_iff.mp h
  obtain ⟨hiv', htag', hdata'⟩ := carries_iff.mp h'
  rw [hiv] at hiv'
  rw [htag] at htag'
  rw [hdata] at hdata'
  exact ⟨Except.ok.inj hiv', Except.ok.inj htag', Except.ok.inj hdata'⟩

/-- The form that `encryptSecret` writes. -/
def canonical (iv tag data : Bytes) : String :=
  ".".intercalate [Buffer.toHex iv, Buffer.toHex tag, Buffer.toHex data]

theorem split_canonical (iv tag data : Bytes) :
    split (canonical iv tag data) '.'
      = [Buffer.toHex iv, Buffer.toHex tag, Buffer.toHex data] := by
  have hfields : ∀ field ∈ [Buffer.hexDigits iv, Buffer.hexDigits tag, Buffer.hexDigits data],
      '.' ∉ field := by
    intro field hfield
    simp only [List.mem_cons, List.not_mem_nil, or_false] at hfield
    rcases hfield with rfl | rfl | rfl
    all_goals exact Buffer.dot_notMem_hexDigits _
  have htext : (canonical iv tag data).toList = ['.'].intercalate
      [Buffer.hexDigits iv, Buffer.hexDigits tag, Buffer.hexDigits data] := by
    rw [canonical, String.toList_intercalate]
    simp [Buffer.toHex]
  rw [split, htext, List.splitOn_intercalate '.' hfields (by simp)]
  rfl

theorem carries_canonical (iv tag data : Bytes) : Carries (canonical iv tag data) iv tag data := by
  rw [carries_iff, split_canonical]
  simp [fromHex, Buffer.ofHex_toHex]

/-! ### One key and one iv -/

namespace Sample

def key : Key := ⟨List.replicate 32 0, rfl⟩

def iv : Nonce := ⟨List.replicate 12 0, rfl⟩

/-- The first bytes that the cipher adds for this key and this iv. -/
def stream : Bytes := [0xce, 0xa7, 0x40, 0x3d, 0x4d, 0x60, 0x6b, 0x6e]

/-- The data of `"a.b"`. -/
def data : Bytes := [0xaf, 0x89, 0x22]

/-- The tag of these data. -/
def tag : Bytes :=
  [0xf2, 0x86, 0x28, 0x2e, 0x83, 0x5b, 0x5c, 0x5b, 0xb4, 0xb4, 0x97, 0x0f, 0x7b, 0x9b, 0x7a, 0x24]

def mask (iv' bytes : Bytes) : Bytes :=
  bytes.mapIdx fun i b => if iv' = iv then b ^^^ stream.getD i 0 else b

/-- The mode, as far as it takes to encrypt `"a.b"`. -/
def gcm : Gcm where
  encrypt _ := mask
  decrypt _ := mask
  authTag _ iv' data' := if iv' = iv ∧ data' = data then tag else List.replicate 16 0
  ivLength n := 1 ≤ n ∧ n ≤ 128

theorem mask_mask (iv' bytes : Bytes) : mask iv' (mask iv' bytes) = bytes := by
  apply List.ext_getElem
  · simp [mask]
  · intro i hi hi'
    by_cases hiv : iv' = iv.val
    · -- The same byte of the stream twice.
      simp only [mask, if_pos hiv, List.mapIdx_mapIdx, List.getElem_mapIdx, Function.comp_apply,
        UInt8.xor_assoc, UInt8.xor_self, UInt8.xor_zero]
    · simp [mask, hiv]

theorem lawful : gcm.Lawful where
  decrypt_encrypt _ iv' plaintext _ := mask_mask iv' plaintext
  encrypt_decrypt _ iv' data' _ := mask_mask iv' data'
  authTag_length _ iv' data' := by
    by_cases hdata : iv' = iv.val ∧ data' = data
    · simp [gcm, hdata, tag]
    · simp [gcm, hdata]
  ivLength_twelve := rfl

/-- Upper case, a tag of four bytes, and a field too many. -/
def loose : String := "000000000000000000000000.F286282E.AF8922.more"

end Sample

/-! ### What is decrypted -/

section

variable {gcm : Gcm} {key : Key}

/-- The decipher takes the iv and the tag, and the tag is the beginning of the one of the data. -/
def Opens (gcm : Gcm) (key : Key) (iv tag data : Bytes) : Prop :=
  gcm.ivLength iv.length = true ∧ tagLength tag.length = true ∧ tag <+: gcm.authTag key iv data

theorem decryptSecret_eq_ok {text value : String} :
    decryptSecret gcm key text = .ok value ↔ ∃ iv tag data, Carries text iv tag data ∧
      Opens gcm key iv tag data ∧ value = Buffer.toText (gcm.decrypt key iv data) := by
  unfold decryptSecret
  constructor
  · intro h
    obtain ⟨iv, hiv, h⟩ := bind_eq_ok.mp h
    obtain ⟨_, hlength, h⟩ := bind_eq_ok.mp h
    obtain ⟨tag, htag, h⟩ := bind_eq_ok.mp h
    obtain ⟨_, htagLength, h⟩ := bind_eq_ok.mp h
    obtain ⟨data, hdata, h⟩ := bind_eq_ok.mp h
    obtain ⟨_, hauthentic, h⟩ := bind_eq_ok.mp h
    refine ⟨iv, tag, data, carries_iff.mpr ⟨hiv, htag, hdata⟩, ?_, (Except.ok.inj h).symm⟩
    exact ⟨guard_eq_ok.mp hlength, guard_eq_ok.mp htagLength, guard_eq_ok.mp hauthentic⟩
  · rintro ⟨iv, tag, data, hcarries, ⟨hlength, htagLength, hauthentic⟩, rfl⟩
    obtain ⟨hiv, htag, hdata⟩ := carries_iff.mp hcarries
    refine bind_eq_ok.mpr ⟨iv, hiv, ?_⟩
    refine bind_eq_ok.mpr ⟨(), guard_eq_ok.mpr hlength, ?_⟩
    refine bind_eq_ok.mpr ⟨tag, htag, ?_⟩
    refine bind_eq_ok.mpr ⟨(), guard_eq_ok.mpr htagLength, ?_⟩
    refine bind_eq_ok.mpr ⟨data, hdata, ?_⟩
    exact bind_eq_ok.mpr ⟨(), guard_eq_ok.mpr hauthentic, rfl⟩

/-- What `encryptSecret` writes is opened with its own iv and tag. -/
theorem opens_encrypted (h : gcm.Lawful) (iv : Nonce) (data : Bytes) :
    Opens gcm key iv (gcm.authTag key iv data) data := by
  refine ⟨by rw [iv.property]; exact h.ivLength_twelve, ?_, List.prefix_rfl⟩
  rw [h.authTag_length]
  rfl

theorem decryptSecret_encryptSecret (h : gcm.Lawful) (iv : Nonce) (value : String) :
    decryptSecret gcm key (encryptSecret gcm key iv value) = .ok value := by
  have hlength : gcm.ivLength iv.val.length = true := by
    rw [iv.property]
    exact h.ivLength_twelve
  refine decryptSecret_eq_ok.mpr ⟨_, _, _, carries_canonical _ _ _, opens_encrypted h iv _, ?_⟩
  rw [h.decrypt_encrypt key iv _ hlength, Buffer.toText_ofText]

/--
**A secret that was stored is recovered.**  Splitting what was written gives back the three byte
strings, and decrypting it the value.
-/
theorem secrets_recovered (h : gcm.Lawful) (iv : Nonce) (value : String) :
    (split (encryptSecret gcm key iv value) '.').map Buffer.ofHex
        = [iv.val, gcm.authTag key iv (gcm.encrypt key iv (Buffer.ofText value)),
          gcm.encrypt key iv (Buffer.ofText value)] ∧
      decryptSecret gcm key (encryptSecret gcm key iv value) = .ok value := by
  have hform : encryptSecret gcm key iv value
      = canonical iv (gcm.authTag key iv (gcm.encrypt key iv (Buffer.ofText value)))
          (gcm.encrypt key iv (Buffer.ofText value)) := rfl
  refine ⟨?_, decryptSecret_encryptSecret h iv value⟩
  rw [hform, split_canonical]
  simp [Buffer.ofHex_toHex]

theorem secrets_recovered_dotted :
    decryptSecret Sample.gcm Sample.key (encryptSecret Sample.gcm Sample.key Sample.iv "a.b")
      = .ok "a.b" :=
  (secrets_recovered Sample.lawful Sample.iv "a.b").2

example : encryptSecret Sample.gcm Sample.key Sample.iv "a.b"
    = "000000000000000000000000.f286282e835b5c5bb4b4970f7b9b7a24.af8922" := by decide

/-- What was written with an iv carries that iv, a whole tag, and the data of the value. -/
theorem carries_encryptSecret {iv tag data : Bytes} {nonce : Nonce} {value : String}
    (hcarries : Carries (encryptSecret gcm key nonce value) iv tag data) :
    iv = nonce ∧ tag = gcm.authTag key nonce (gcm.encrypt key nonce (Buffer.ofText value)) ∧
      data = gcm.encrypt key nonce (Buffer.ofText value) :=
  hcarries.unique (carries_canonical _ _ _)

/--
**The texts that are accepted.**  A text is decrypted exactly if its first three fields spell an
iv that the decipher takes, the beginning of the tag of the data, of a length that it takes, and
the data; the case of the digits, what follows them in a field, and further fields do not matter.
It is what `encryptSecret` writes for the value, with that iv, exactly if it has the form of what
is written, with a whole tag, and what was encrypted is the encoding of a text.
-/
theorem accepted_texts (h : gcm.Lawful) (text value : String) :
    (decryptSecret gcm key text = .ok value ↔ ∃ iv tag data, Carries text iv tag data ∧
      Opens gcm key iv tag data ∧ value = Buffer.toText (gcm.decrypt key iv data)) ∧
    (decryptSecret gcm key text = .ok value → ∀ iv tag data, Carries text iv tag data →
      ((∃ nonce : Nonce, nonce.val = iv ∧ text = encryptSecret gcm key nonce value) ↔
        text = canonical iv tag data ∧ iv.length = 12 ∧ tag.length = 16 ∧
          Buffer.ofText value = gcm.decrypt key iv data)) := by
  refine ⟨decryptSecret_eq_ok, ?_⟩
  intro hok iv tag data hcarries
  obtain ⟨iv', tag', data', hcarries', ⟨hlength, htagLength, hauthentic⟩, hvalue⟩ :=
    decryptSecret_eq_ok.mp hok
  obtain ⟨rfl, rfl, rfl⟩ := hcarries.unique hcarries'
  constructor
  · rintro ⟨nonce, rfl, rfl⟩
    obtain ⟨-, htag, hdata⟩ := carries_encryptSecret hcarries
    refine ⟨?_, nonce.property, ?_, ?_⟩
    · rw [htag, hdata]
      rfl
    · rw [htag, h.authTag_length]
    · rw [hdata, h.decrypt_encrypt key nonce _ hlength]
  · rintro ⟨htext, hnonce, hwhole, hencoded⟩
    have htag : tag = gcm.authTag key iv data := by
      apply hauthentic.eq_of_length
      rw [hwhole, h.authTag_length]
    have hdata : gcm.encrypt key iv (Buffer.ofText value) = data := by
      rw [hencoded, h.encrypt_decrypt key iv data hlength]
    refine ⟨⟨iv, hnonce⟩, rfl, ?_⟩
    rw [htext, htag]
    show canonical iv (gcm.authTag key iv data) data
      = canonical iv (gcm.authTag key iv (gcm.encrypt key iv (Buffer.ofText value)))
          (gcm.encrypt key iv (Buffer.ofText value))
    rw [hdata]

theorem accepted_texts_loose :
    ∃ iv tag data, Carries Sample.loose iv tag data ∧
      Opens Sample.gcm Sample.key iv tag data ∧
      "a.b" = Buffer.toText (Sample.gcm.decrypt Sample.key iv data) :=
  (accepted_texts Sample.lawful Sample.loose "a.b").1.mp (by decide +kernel)

/-- Not only what `encryptSecret` writes is decrypted. -/
theorem loose_accepted :
    decryptSecret Sample.gcm Sample.key Sample.loose = .ok "a.b" ∧
      ∀ nonce value, Sample.loose ≠ encryptSecret Sample.gcm Sample.key nonce value := by
  refine ⟨by decide +kernel, ?_⟩
  intro nonce value heq
  have hfour : (split Sample.loose '.').length = 4 := by decide
  have hthree : (split (encryptSecret Sample.gcm Sample.key nonce value) '.').length = 3 := by
    show (split (canonical _ _ _) '.').length = 3
    rw [split_canonical]
    rfl
  rw [heq, hthree] at hfour
  omega

end

end Secrets

end CommercePlatform
