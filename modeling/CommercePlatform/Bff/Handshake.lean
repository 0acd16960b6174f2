/-
What a login writes, and what is read of it.

`Bff/Login.lean` speaks of transactions and of URLs of `/authorize` as values.  In the
program they are texts: a query, which Auth0 reads, and JSON in a cookie, which the
callback reads.  Here are the texts, of `packages/auth` and of the two controllers; that
each is read as what it was made of, whatever the configuration and the random bytes,
is what lets the login be told in values.

The cookie comes back if its signature is good.  The signature is not for one cookie, so a
browser may also put the signed identifier of its session there; the callback takes no such
text for a transaction.
-/
import CommercePlatform.Bff.Login
import CommercePlatform.Edge.Controllers
import CommercePlatform.Js.Base64Url
import CommercePlatform.Js.FormUrlencoded
import CommercePlatform.Js.Interchange

namespace CommercePlatform

open Js

/-! ### What `packages/auth` writes -/

/-- What `packages/auth` has from its configuration and from `node:crypto`. -/
structure Auth0 where
  domain : String
  clientId : String
  clientSecret : String
  audience : String
  redirectUri : String
  scope : String
  sha256 : Bytes → Bytes

namespace Auth0

/-- What `crypto.randomBytes(32)` returns. -/
abbrev Random := { bytes : Bytes // bytes.length = 32 }

def randomToken (random : Random) : String := Buffer.toHex random

variable (auth0 : Auth0)

/-- `createHash("sha256").update(verifier).digest("base64url")`. -/
def codeChallenge (verifier : String) : String :=
  Base64Url.encode (auth0.sha256 (Buffer.ofText verifier))

structure PkcePair where
  verifier : String
  challenge : String

def createPkcePair (random : Random) : PkcePair :=
  let verifier := randomToken random
  { verifier := verifier, challenge := auth0.codeChallenge verifier }

def authorizeParams (state nonce codeChallenge : String) : List (String × String) := [
  ("client_id", auth0.clientId),
  ("response_type", "code"),
  ("redirect_uri", auth0.redirectUri),
  ("scope", auth0.scope),
  ("audience", auth0.audience),
  ("state", state),
  ("nonce", nonce),
  ("code_challenge", codeChallenge),
  ("code_challenge_method", "S256")]

def buildAuthorizeUrl (state nonce codeChallenge : String) : String :=
  "https://" ++ auth0.domain ++ "/authorize" ++ "?" ++
    UrlSearchParams.toString (auth0.authorizeParams state nonce codeChallenge)

/-- The body of the request of `exchangeAuthorizationCode`. -/
def exchangeAuthorizationCode (code : String) (codeVerifier : Option Json) : Fields := [
  ("grant_type", some (.str "authorization_code")),
  ("client_id", some (.str auth0.clientId)),
  ("client_secret", some (.str auth0.clientSecret)),
  ("code_verifier", codeVerifier),
  ("code", some (.str code)),
  ("redirect_uri", some (.str auth0.redirectUri))]

/-- The body of the request of `refreshAuth0Tokens`. -/
def refreshAuth0Tokens (refreshToken : String) : Fields := [
  ("grant_type", some (.str "refresh_token")),
  ("client_id", some (.str auth0.clientId)),
  ("client_secret", some (.str auth0.clientSecret)),
  ("refresh_token", some (.str refreshToken))]

/-- The body of the request of `revokeRefreshToken`. -/
def revokeRefreshToken (refreshToken : String) : Fields := [
  ("client_id", some (.str auth0.clientId)),
  ("client_secret", some (.str auth0.clientSecret)),
  ("token", some (.str refreshToken))]

end Auth0

/-- What `crypto.randomUUID()` makes of its sixteen bytes. -/
def uuidText (bytes : Bytes) : String :=
  "-".intercalate [
    Buffer.toHex (bytes.take 4), Buffer.toHex ((bytes.drop 4).take 2),
    Buffer.toHex ((bytes.drop 6).take 2), Buffer.toHex ((bytes.drop 8).take 2),
    Buffer.toHex (bytes.drop 10)]

/-! ### The controllers -/

namespace Bff

/-- What a login draws. -/
structure Draws where
  verifier : Auth0.Random
  state : Auth0.Random
  nonce : Auth0.Random

/-- The transaction of a login. -/
def Draws.tx (draws : Draws) : Tx where
  verifier := Auth0.randomToken draws.verifier
  state := Auth0.randomToken draws.state
  nonce := Auth0.randomToken draws.nonce

structure LoginReply where
  /-- The value of the cookie `auth0_tx`, before it is signed. -/
  cookie : String
  location : String

def loginController (auth0 : Auth0) (draws : Draws) : LoginReply :=
  let pair := auth0.createPkcePair draws.verifier
  let state := Auth0.randomToken draws.state
  let nonce := Auth0.randomToken draws.nonce
  { cookie := Fields.text [("verifier", some (.str pair.verifier)), ("state", some (.str state)),
      ("nonce", some (.str nonce))]
    location := auth0.buildAuthorizeUrl state nonce pair.challenge }

/-- What the callback goes on with, after its checks. -/
structure Exchange where
  /-- The body of the request to Auth0. -/
  body : String
  /-- The nonce that the token must have. -/
  nonce : Option Json
  deriving DecidableEq

/-- `tx.property`. -/
def txProperty (tx : Json) (property : String) : Except Refusal (Option Json) :=
  match tx.get property with
  | .error _ => .error .raised
  | .ok value => .ok value

/-- `callbackController`, up to its request to Auth0. -/
def callbackController (auth0 : Auth0) (unsignCookie : String → Option String)
    (query : CallbackQuery) (cookie : Option String) : Except Refusal Exchange :=
  match query.code, query.state with
  | some code, some state =>
      if code = "" ∨ state = "" then .error (.reply 400 "Missing code or state")
      else match unsignCookie (cookie.getD "") with
        | none => .error (.reply 400 "Missing login transaction")
        | some value =>
            if value = "" then .error (.reply 400 "Missing login transaction")
            else match Json.ofText value with
              | none => .error .raised
              | some tx => do
                  let txState ← txProperty tx "state"
                  if ¬ isText txState state then .error (.reply 400 "Invalid state")
                  else
                    let verifier ← txProperty tx "verifier"
                    let nonce ← txProperty tx "nonce"
                    return {
                      body := (auth0.exchangeAuthorizationCode code verifier).text
                      nonce := nonce }
  | _, _ => .error (.reply 400 "Missing code or state")

/-- A stage of the callback, as the texts show it. -/
inductive Shows (auth0 : Auth0) : LoginStage → Except Refusal Exchange → Prop where
  | refused (message : String) : Shows auth0 (.refused message) (.error (.reply 400 message))
  | exchange (code : String) (tx : Tx) : Shows auth0 (.exchangeAuthorizationCode code tx) (.ok {
      body := (auth0.exchangeAuthorizationCode code (some (.str tx.verifier))).text
      nonce := some (.str tx.nonce) })

/-- What `/authorize` is asked for. -/
def AuthorizeUrl.ofPairs (pairs : List (String × String)) : AuthorizeUrl where
  state := pairs.lookup "state"
  nonce := pairs.lookup "nonce"
  codeChallenge := pairs.lookup "code_challenge"

end Bff

/-! ### No identifier is JSON -/

namespace Js

theorem count_dropWhile_isDigit (cs : List Char) :
    (cs.dropWhile Char.isDigit).count '-' = cs.count '-' := by
  have hdigits : (cs.takeWhile Char.isDigit).count '-' = 0 := by
    apply List.count_eq_zero_of_not_mem
    intro hmem
    exact absurd (List.mem_takeWhile_imp hmem) (by decide)
  have hsplit := congrArg (List.count '-') (List.takeWhile_append_dropWhile
    (p := Char.isDigit) (l := cs))
  rw [List.count_append, hdigits, Nat.zero_add] at hsplit
  exact hsplit

theorem count_of_readDigits {cs rest ds : List Char} (h : readDigits cs = some (ds, rest)) :
    rest.count '-' = cs.count '-' := by
  unfold readDigits at h
  split at h
  · simp at h
  · obtain ⟨-, rfl⟩ := Prod.mk.inj (Option.some.inj h)
    exact count_dropWhile_isDigit cs

theorem count_of_readFraction {cs rest ds : List Char} (h : readFraction cs = some (ds, rest)) :
    rest.count '-' = cs.count '-' := by
  unfold readFraction at h
  split at h
  · rw [count_of_readDigits h, List.count_cons]
    rfl
  · obtain ⟨-, rfl⟩ := Prod.mk.inj (Option.some.inj h)
    rfl

theorem count_readSign (cs : List Char) : cs.count '-' ≤ (readSign cs).2.count '-' + 1 := by
  unfold readSign
  split
  · rw [List.count_cons]
    simp
  · rw [List.count_cons]
    simp
  · simp

theorem count_of_readExponent {cs rest : List Char} {e : ℤ}
    (h : readExponent cs = some (e, rest)) : cs.count '-' ≤ rest.count '-' + 1 := by
  unfold readExponent at h
  split at h
  · obtain ⟨-, rfl⟩ := Prod.mk.inj (Option.some.inj h)
    simp
  · rename_i c cs
    split at h
    · rename_i hletter
      obtain ⟨⟨ds, rest'⟩, hread, heq⟩ := Option.map_eq_some_iff.mp h
      obtain ⟨-, rfl⟩ := Prod.mk.inj heq
      have hc : (c :: cs).count '-' = cs.count '-' := by
        rcases hletter with rfl | rfl
        · exact List.count_cons_of_ne (by decide)
        · exact List.count_cons_of_ne (by decide)
      rw [hc, count_of_readDigits hread]
      exact count_readSign cs
    · obtain ⟨-, rfl⟩ := Prod.mk.inj (Option.some.inj h)
      omega

/-- A number has one dash inside at most. -/
theorem count_of_readUnsigned {cs rest : List Char} {q : ℚ}
    (h : readUnsigned cs = some (q, rest)) : cs.count '-' ≤ rest.count '-' + 1 := by
  unfold readUnsigned at h
  obtain ⟨⟨int, cs₁⟩, hint, h⟩ := Option.bind_eq_some_iff.mp h
  obtain ⟨⟨frac, cs₂⟩, hfrac, h⟩ := Option.bind_eq_some_iff.mp h
  obtain ⟨⟨e, cs₃⟩, hexponent, h⟩ := Option.bind_eq_some_iff.mp h
  obtain ⟨-, rfl⟩ := Prod.mk.inj (Option.some.inj h)
  have hinteger : readDigits cs = some (int, cs₁) := (Option.filter_eq_some_iff.mp hint).1
  have hone := count_of_readDigits hinteger
  have htwo := count_of_readFraction hfrac
  have hthree := count_of_readExponent hexponent
  omega

/-- What begins with three digits, of which the first begins no number, is no word. -/
theorem readWord_eq_none {a b c : Char} {rest word : List Char} {value : Value}
    (h : ∀ w, word[2]? = some w → c ≠ w) (hlength : 3 ≤ word.length) :
    Value.readWord word value (a :: b :: c :: rest) = none := by
  unfold Value.readWord
  rw [if_neg]
  intro hprefix
  obtain ⟨more, hmore⟩ := List.isPrefixOf_iff_prefix.mp hprefix
  have hget : (word ++ more)[2]? = some c := congrArg (fun l => l[2]?) hmore
  rw [List.getElem?_append_left (by omega)] at hget
  exact h c hget rfl

theorem skipSpace_ne_nil {cs : List Char} (h : 1 ≤ cs.count '-') : Value.skipSpace cs ≠ [] := by
  intro hnil
  have hspace := List.dropWhile_eq_nil_iff.mp hnil
  have hmem : '-' ∈ cs := List.count_pos_iff.mp h
  exact absurd (hspace '-' hmem) (by decide)

/-- A text of hexadecimal digits and two dashes or more is no JSON. -/
theorem parse_eq_none {m n k : ℕ} (hm : m < 16) (hk : k < 16) {rest : List Char}
    (hdashes : 2 ≤ rest.count '-') :
    Value.parse (Nat.digitChar m :: Nat.digitChar n :: Nat.digitChar k :: rest) = none := by
  have hspace : Value.isSpace (Nat.digitChar m) = false := by
    interval_cases m <;> decide
  have hother : Nat.digitChar m ∉ ['"', '[', '{', 't', 'n', '-'] := by
    interval_cases m <;> decide
  have hthird : Nat.digitChar k ≠ 'l' := by
    interval_cases k <;> decide
  simp only [List.mem_cons, List.not_mem_nil, or_false, not_or] at hother
  obtain ⟨hquote, hopen, hbrace, ht, hn, hminus⟩ := hother
  have hcount : 2 ≤ (Nat.digitChar m :: Nat.digitChar n :: Nat.digitChar k :: rest).count '-' := by
    simp only [List.count_cons]
    omega
  unfold Value.parse
  rw [Value.readValue, Value.skipSpace_cons hspace]
  dsimp only
  rw [if_neg hquote, if_neg hopen, if_neg hbrace, if_neg ht]
  by_cases hf : Nat.digitChar m = 'f'
  · rw [if_pos hf, readWord_eq_none (fun w hw => ?_) (by decide)]
    obtain rfl := Option.some.inj hw
    exact hthird
  · rw [if_neg hf, if_neg hn]
    have hunsigned : readNumber (Nat.digitChar m :: Nat.digitChar n :: Nat.digitChar k :: rest) =
        readUnsigned (Nat.digitChar m :: Nat.digitChar n :: Nat.digitChar k :: rest) := by
      unfold readNumber
      split
      · rename_i heq
        exact absurd (List.cons.inj heq).1 hminus
      · rfl
    rw [hunsigned]
    cases hread : readUnsigned (Nat.digitChar m :: Nat.digitChar n :: Nat.digitChar k :: rest) with
    | none => rfl
    | some read =>
        obtain ⟨q, rest'⟩ := read
        have hleft := count_of_readUnsigned hread
        have hpos : 1 ≤ rest'.count '-' := by omega
        exact if_neg (skipSpace_ne_nil hpos)

end Js

theorem toList_uuidText (bytes : Bytes) :
    ∃ tail, (uuidText bytes).toList = Buffer.hexDigits (bytes.take 4) ++ '-' :: tail ∧
      1 ≤ tail.count '-' := by
  refine ⟨['-'].intercalate [(Buffer.toHex ((bytes.drop 4).take 2)).toList,
    (Buffer.toHex ((bytes.drop 6).take 2)).toList, (Buffer.toHex ((bytes.drop 8).take 2)).toList,
    (Buffer.toHex (bytes.drop 10)).toList], ?_, ?_⟩
  · rw [uuidText, String.toList_intercalate, List.map_cons,
      List.intercalate_cons_of_ne_nil (by simp)]
    simp [Buffer.toHex]
  · rw [List.intercalate_cons_of_ne_nil (by simp)]
    simp only [List.count_append, List.count_cons_self]
    omega

/-- **No identifier is JSON.** -/
theorem parse_uuidText {bytes : Bytes} (h : 4 ≤ bytes.length) :
    Value.parse (uuidText bytes).toList = none := by
  obtain ⟨tail, htext, htail⟩ := toList_uuidText bytes
  obtain ⟨a, b, rest, hbytes⟩ : ∃ a b rest, bytes.take 4 = a :: b :: rest := by
    have hlength : 2 ≤ (bytes.take 4).length := by
      rw [List.length_take]
      omega
    cases htake : bytes.take 4 with
    | nil =>
        rw [htake, List.length_nil] at hlength
        omega
    | cons a rest =>
        rw [htake, List.length_cons] at hlength
        cases rest with
        | nil =>
            rw [List.length_nil] at hlength
            omega
        | cons b rest => exact ⟨a, b, rest, rfl⟩
  have ha : a.toNat < 256 := a.toNat_lt
  have hb : b.toNat < 256 := b.toNat_lt
  have hdigits : Buffer.hexDigits (bytes.take 4) ++ '-' :: tail =
      Nat.digitChar (a.toNat / 16) :: Nat.digitChar (a.toNat % 16) ::
        Nat.digitChar (b.toNat / 16) :: (Nat.digitChar (b.toNat % 16) ::
          (Buffer.hexDigits rest ++ '-' :: tail)) := by
    rw [hbytes]
    rfl
  have hdashes : 2 ≤ (Nat.digitChar (b.toNat % 16) ::
      (Buffer.hexDigits rest ++ '-' :: tail)).count '-' := by
    rw [List.count_cons, List.count_append, List.count_cons_self]
    omega
  rw [htext, hdigits]
  exact Js.parse_eq_none (by omega) (by omega) hdashes

/-! ### A login -/

theorem Auth0.randomToken_injective : Function.Injective Auth0.randomToken := by
  intro a b h
  have hread := congrArg Buffer.ofHex h
  unfold Auth0.randomToken at hread
  rw [Buffer.ofHex_toHex, Buffer.ofHex_toHex] at hread
  exact Subtype.ext hread

/-- A text that is looked through has no separator in it. -/
theorem no_separator {text : String}
    (h : (text.toList.all fun c => c ≠ '?' && c ≠ '#') = true) :
    ∀ c ∈ text.toList, c ≠ '?' ∧ c ≠ '#' := by
  intro c hc
  have hone := List.all_eq_true.mp h c hc
  simpa using hone

/-- A page of Auth0, with its parameters. -/
theorem Auth0.readUrl_page {auth0 : Auth0} (hdomain : ∀ c ∈ auth0.domain.toList, c ≠ '?' ∧ c ≠ '#')
    {path : String} (hpath : ∀ c ∈ path.toList, c ≠ '?' ∧ c ≠ '#')
    (pairs : List (String × String)) :
    readUrl ("https://" ++ auth0.domain ++ path ++ "?" ++ UrlSearchParams.toString pairs) =
      ("https://" ++ auth0.domain ++ path, pairs) := by
  have hbase : ∀ c ∈ ("https://" ++ auth0.domain ++ path).toList, c ≠ '?' ∧ c ≠ '#' := by
    intro c hc
    simp only [String.toList_append, List.mem_append] at hc
    rcases hc with (hc | hc) | hc
    · exact no_separator (by decide) c hc
    · exact hdomain c hc
    · exact hpath c hc
  exact readUrl_query (fun hmem => (hbase _ hmem).1 rfl) (fun hmem => (hbase _ hmem).2 rfl) pairs

/-- Auth0 reads the request of the callback as it was made. -/
theorem Auth0.ofText_exchange (auth0 : Auth0) (code verifier : String) :
    Json.ofText (auth0.exchangeAuthorizationCode code (some (.str verifier))).text =
      some (.obj [("grant_type", .str "authorization_code"), ("client_id", .str auth0.clientId),
        ("client_secret", .str auth0.clientSecret), ("code_verifier", .str verifier),
        ("code", .str code), ("redirect_uri", .str auth0.redirectUri)]) := by
  apply Fields.ofText_text
  · simp [exchangeAuthorizationCode, Fields.defined]
  · simp [exchangeAuthorizationCode, Fields.defined, IsIndex]
  · simp [exchangeAuthorizationCode, Fields.defined, Json.Travels]

namespace Bff

variable {auth0 : Auth0} {draws : Draws}

theorem readUrl_location (hdomain : ∀ c ∈ auth0.domain.toList, c ≠ '?' ∧ c ≠ '#') :
    readUrl (loginController auth0 draws).location =
      ("https://" ++ auth0.domain ++ "/authorize",
        auth0.authorizeParams draws.tx.state draws.tx.nonce
          (auth0.codeChallenge draws.tx.verifier)) :=
  Auth0.readUrl_page hdomain (no_separator (by decide)) _

theorem Draws.eq_of_tx {a b : Draws} (h : a.tx = b.tx) : a = b := by
  obtain ⟨hverifier, hstate, hnonce⟩ := Tx.mk.inj h
  obtain ⟨verifier, state, nonce⟩ := a
  obtain rfl := Auth0.randomToken_injective hverifier
  obtain rfl := Auth0.randomToken_injective hstate
  obtain rfl := Auth0.randomToken_injective hnonce
  rfl

theorem ofText_cookie (auth0 : Auth0) (draws : Draws) :
    Json.ofText (loginController auth0 draws).cookie =
      some (.obj [("verifier", .str draws.tx.verifier), ("state", .str draws.tx.state),
        ("nonce", .str draws.tx.nonce)]) := by
  apply Fields.ofText_text
  · simp [Fields.defined]
  · simp [Fields.defined, IsIndex]
  · simp [Fields.defined, Json.Travels]

/-- What the callback goes on with, for the cookie of a login. -/
theorem shows_callback {unsignCookie : String → Option String} {cookie : String}
    (hcookie : unsignCookie cookie = some (loginController auth0 draws).cookie)
    (query : CallbackQuery) :
    Shows auth0 (enterCallback query (some draws.tx))
      (callbackController auth0 unsignCookie query (some cookie)) := by
  obtain ⟨code, state⟩ := query
  cases code with
  | none => exact .refused _
  | some code =>
      cases state with
      | none => exact .refused _
      | some state =>
          unfold enterCallback callbackController
          dsimp only
          by_cases hempty : code = "" ∨ state = ""
          · rw [if_pos hempty, if_pos hempty]
            exact .refused _
          · rw [if_neg hempty, if_neg hempty, Option.getD_some, hcookie]
            dsimp only
            rw [if_neg (Json.ne_empty_of_ofText (ofText_cookie auth0 draws)), ofText_cookie]
            by_cases hstate : draws.tx.state = state
            · rw [if_neg (not_not.mpr hstate)]
              have hsame : isText (some (.str draws.tx.state)) state = true := by
                rw [isText_str, decide_eq_true hstate]
              simpa [txProperty, List.lookup_cons, hsame, bind, Except.bind, pure, Except.pure]
                using Shows.exchange code draws.tx
            · rw [if_pos hstate]
              have hsame : isText (some (.str draws.tx.state)) state = false := by
                rw [isText_str, decide_eq_false hstate]
              simpa [txProperty, List.lookup_cons, hsame, bind, Except.bind]
                using Shows.refused "Invalid state"

/-- A session's identifier is taken for no transaction. -/
theorem callback_of_uuid {unsignCookie : String → Option String} {cookie : String} {bytes : Bytes}
    (hcookie : unsignCookie cookie = some (uuidText bytes)) (hbytes : 4 ≤ bytes.length)
    {code state : String} (hcode : code ≠ "") (hstate : state ≠ "") :
    callbackController auth0 unsignCookie ⟨some code, some state⟩ (some cookie) =
      .error .raised := by
  have hread : Json.ofText (uuidText bytes) = none := by
    rw [Json.ofText, parse_uuidText hbytes]
    rfl
  have hempty : uuidText bytes ≠ "" := by
    intro heq
    obtain ⟨tail, htext, -⟩ := toList_uuidText bytes
    rw [heq] at htext
    simp at htext
  simp [callbackController, hcode, hstate, hcookie, hempty, hread]

/--
**A login can be told in values.**  Auth0 reads the nine parameters that were meant, whatever
is in them, and of them what the transaction says; the callback that gets the cookie of the
login does what it does with the transaction, for any query; Auth0 reads its request as it
was meant; a callback that gets a session's identifier for a cookie raises.  Logins that
drew other bytes differ, and their challenges do just if the digests do.
-/
theorem login_texts {Browser : Type} (auth0 : Auth0) (config : LoginConfig Browser)
    (hconfig : config.sha256 = auth0.codeChallenge)
    (hdomain : ∀ c ∈ auth0.domain.toList, c ≠ '?' ∧ c ≠ '#')
    (unsignCookie : String → Option String) (draws : Draws) :
    readUrl (loginController auth0 draws).location =
        ("https://" ++ auth0.domain ++ "/authorize", [
          ("client_id", auth0.clientId),
          ("response_type", "code"),
          ("redirect_uri", auth0.redirectUri),
          ("scope", auth0.scope),
          ("audience", auth0.audience),
          ("state", draws.tx.state),
          ("nonce", draws.tx.nonce),
          ("code_challenge", config.challenge draws.tx.verifier),
          ("code_challenge_method", "S256")]) ∧
      AuthorizeUrl.ofPairs (readUrl (loginController auth0 draws).location).2 =
        draws.tx.url config ∧
      (∀ cookie query, unsignCookie cookie = some (loginController auth0 draws).cookie →
        Shows auth0 (enterCallback query (some draws.tx))
          (callbackController auth0 unsignCookie query (some cookie))) ∧
      (∀ code, Json.ofText
          (auth0.exchangeAuthorizationCode code (some (.str draws.tx.verifier))).text =
        some (.obj [("grant_type", .str "authorization_code"), ("client_id", .str auth0.clientId),
          ("client_secret", .str auth0.clientSecret), ("code_verifier", .str draws.tx.verifier),
          ("code", .str code), ("redirect_uri", .str auth0.redirectUri)])) ∧
      (∀ cookie bytes code state, bytes.length = 16 → unsignCookie cookie = some (uuidText bytes) →
        code ≠ "" → state ≠ "" →
        callbackController auth0 unsignCookie ⟨some code, some state⟩ (some cookie) =
          .error .raised) ∧
      ∀ other : Draws, (other.tx = draws.tx ↔ other = draws) ∧
        (config.challenge other.tx.verifier = config.challenge draws.tx.verifier ↔
          auth0.sha256 (Buffer.ofText other.tx.verifier) =
            auth0.sha256 (Buffer.ofText draws.tx.verifier)) := by
  have hurl : readUrl (loginController auth0 draws).location = _ := readUrl_location hdomain
  refine ⟨?_, ?_, ?_, ?_, ?_, ?_⟩
  · rw [hurl, Auth0.authorizeParams, LoginConfig.challenge, hconfig]
  · rw [hurl, AuthorizeUrl.ofPairs, Tx.url, LoginConfig.challenge, hconfig]
    simp [Auth0.authorizeParams, buildAuthorizeUrl, List.lookup_cons]
  · intro cookie query hcookie
    exact shows_callback hcookie query
  · intro code
    exact auth0.ofText_exchange code draws.tx.verifier
  · intro cookie bytes code state hbytes hcookie hcode hstate
    exact callback_of_uuid hcookie (by omega) hcode hstate
  · intro other
    refine ⟨⟨Draws.eq_of_tx, fun heq => heq ▸ rfl⟩, ?_⟩
    rw [LoginConfig.challenge, LoginConfig.challenge, hconfig]
    exact Base64Url.encode_injective.eq_iff

end Bff

end CommercePlatform

namespace CommercePlatform.Bff.Tenant

open Js

def zeros : Auth0.Random := ⟨(List.range 32).map fun _ => 0, rfl⟩

/-- The digest of 64 zeros, which is the verifier below. -/
def digest : Bytes := [96, 224, 91, 209, 177, 149, 175, 47, 148, 17, 47, 167, 25, 122, 92, 136,
  40, 144, 88, 132, 12, 231, 198, 223, 150, 147, 117, 107, 198, 37, 15, 85]

def auth0 : Auth0 where
  domain := "your-tenant.us.auth0.com"
  clientId := "your_bff_client_id"
  clientSecret := "your_bff_client_secret"
  audience := "https://api.example.local"
  redirectUri := "http://localhost:3000/auth/callback"
  scope := "openid profile email offline_access"
  sha256 _ := digest

def config : LoginConfig Unit where
  refreshWindowMs := 120000
  sessionCookieDomain := "localhost"
  sha256 := auth0.codeChallenge
  adversary _ := false

def draws : Draws where
  verifier := zeros
  state := ⟨List.replicate 32 1, rfl⟩
  nonce := ⟨List.replicate 32 2, rfl⟩

/-- The URL of this login says what its transaction says. -/
theorem redirected : AuthorizeUrl.ofPairs (readUrl (loginController auth0 draws).location).2 =
    draws.tx.url config :=
  (login_texts auth0 config rfl (no_separator (by decide)) some draws).2.1

example : auth0.codeChallenge (Auth0.randomToken zeros) =
    "YOBb0bGVry-UES-nGXpciCiQWIQM58bflpN1a8YlD1U" := by
  decide +kernel

end CommercePlatform.Bff.Tenant
