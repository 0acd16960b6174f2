/-
A login is bound to the browser that started it.

What ties its two ends together is the nonce.  It is drawn for one transaction, which one browser
gets, and who authenticates at a URL that carries it has been sent there by that transaction; so a
token with the nonce of the cookie is for a user who has logged in with the cookie.
-/
import CommercePlatform.Bff.Authorizations
import CommercePlatform.Bff.Login

namespace CommercePlatform.Bff

open Js

/-! ### Users and sessions stay -/

/-- With keys that are unique, a session is joined with the user whose key it has. -/
theorem Tables.find_of_account {tables : Tables} {userId auth0Sub : String}
    (hids : (tables.users.map User.id).Nodup) (h : (userId, auth0Sub) ∈ tables.accounts) :
    (tables.users.find? fun user => user.id = userId).map User.auth0Sub = some auth0Sub := by
  obtain ⟨user, huser, heq⟩ := List.mem_map.mp h
  obtain ⟨rfl, rfl⟩ := Prod.mk.inj heq
  obtain ⟨found, hfound⟩ := Option.ne_none_iff_exists'.mp
    (Tables.find_of_mem (List.mem_map.mpr ⟨user, huser, rfl⟩))
  have hid := List.find?_some hfound
  simp only [decide_eq_true_eq] at hid
  have hsame := List.inj_on_of_nodup_map hids (List.mem_of_find?_eq_some hfound) huser hid
  rw [hfound, hsame]
  rfl

theorem State.Turn.accounts {refreshWindowMs : ℤ} {s s' : State} {act : Act}
    (h : Turn refreshWindowMs s act s') :
    s'.tables.accounts = s.tables.accounts ∨ ∃ user : User,
      s'.tables.accounts = s.tables.accounts ++ [(user.id, user.auth0Sub)] ∧
      user.id ∉ s.tables.users.map User.id := by
  cases h with
  | @upsertUser user tables id hupsert =>
      rcases Tables.accounts_upsertUser hupsert with ⟨hsame, -⟩ | ⟨happend, -, hnew, -⟩
      · exact Or.inl hsame
      · exact Or.inr ⟨user, happend, hnew⟩
  | _ => exact Or.inl rfl

namespace Logins

variable {Browser : Type} {config : LoginConfig Browser} {s s' : Logins Browser}
  {act : Act Browser} {steps : List (Logins Browser × Act Browser)}
  {entry : Logins Browser × Act Browser} {i : ℕ} {callback : Callback Browser} {code : String}
  {tx : Tx} {idToken : List (String × Json)}

/-- What is never lost. -/
structure Grows (s s' : Logins Browser) : Prop where
  created : ∀ entry ∈ s.created, entry ∈ s'.created
  codes : ∀ code authentication, s.codes.lookup code = some authentication →
    s'.codes.lookup code = some authentication
  accounts : ∀ account ∈ s.bff.tables.accounts, account ∈ s'.bff.tables.accounts
  rows : ∀ id row, s.bff.tables.sessions id = some row →
    ∃ row', s'.bff.tables.sessions id = some row' ∧ row'.userId = row.userId

theorem grows_of_same (hbff : s'.bff = s.bff) (hcreated : s'.created = s.created)
    (hcodes : s'.codes = s.codes) : Grows s s' where
  created _ h := hcreated ▸ h
  codes _ _ h := hcodes ▸ h
  accounts _ h := hbff ▸ h
  rows _ row h := ⟨row, hbff ▸ h, rfl⟩

theorem grows_of_bff {refreshWindowMs : ℤ} {bffAct : Bff.Act}
    (hs : s.bff.step refreshWindowMs bffAct = some s'.bff) (hcreated : s'.created = s.created)
    (hcodes : s'.codes = s.codes) : Grows s s' where
  created _ h := hcreated ▸ h
  codes _ _ h := hcodes ▸ h
  accounts account haccount := by
    rcases (State.turn_of_step hs).accounts with hsame | ⟨user, happend, -⟩
    · rw [hsame]
      exact haccount
    · rw [happend]
      exact List.mem_append_left _ haccount
  rows id row hrow := by
    obtain ⟨row', hrow', hkept⟩ := (State.turn_of_step hs).row_kept hrow
    exact ⟨row', hrow', hkept.userId⟩

/-- The first statement of `createUserSession` is one that the BFF knows. -/
theorem step_upsertUser (refreshWindowMs : ℤ) {user : User} {tables : Tables} {userId : String}
    (hupsert : s.bff.tables.upsertUser user = some (tables, userId)) :
    s.bff.step refreshWindowMs (.upsertUser user) = some { s.bff with tables := tables } :=
  Option.map_eq_some_iff.mpr ⟨_, hupsert, rfl⟩

section

variable [DecidableEq Browser]

theorem Turn.grows (h : Turn config s act s') : Grows s s' := by
  cases h with
  | loginController hfresh =>
      exact ⟨fun _ h => List.mem_cons_of_mem _ h, fun _ _ h => h, fun _ h => h,
        fun _ row h => ⟨row, h, rfl⟩⟩
  | @authorize code' authentication hnew hvisits =>
      refine ⟨fun _ h => h, fun code known hknown => ?_, fun _ h => h, fun _ row h => ⟨row, h, rfl⟩⟩
      show ((code', authentication) :: s.codes).lookup code = some known
      have hne : (code == code') = false := by
        apply beq_eq_false_iff_ne.mpr
        rintro rfl
        rw [hnew] at hknown
        simp at hknown
      rw [List.lookup_cons, hne]
      exact hknown
  | upserted hcallback hstage hupsert =>
      exact grows_of_bff (step_upsertUser config.refreshWindowMs hupsert) rfl rfl
  | inserted hcallback hstage hinsert => exact grows_of_bff hinsert rfl rfl
  | bff hs => exact grows_of_bff hs rfl rfl
  | _ => exact grows_of_same rfl rfl rfl

/-- Only `loginController` creates a transaction, with a nonce of its own. -/
theorem Turn.created (h : Turn config s act s') :
    s'.created = s.created ∧ (∀ browser tx, act ≠ .loginController browser tx) ∨
    ∃ browser tx, act = .loginController browser tx ∧ s.Fresh tx ∧
      s'.created = (browser, tx) :: s.created := by
  cases h with
  | loginController hfresh => exact Or.inr ⟨_, _, rfl, hfresh, rfl⟩
  | raised hcallback hwaits hact => exact Or.inl ⟨rfl, hact⟩
  | _ => exact Or.inl ⟨rfl, by simp⟩

/-- A callback that has replied is done. -/
theorem Turn.replied_kept (h : Turn config s act s') {tokenSet : CodeTokens} {sessionId : String}
    (hcallback : s.callbacks i = some callback)
    (hstage : callback.stage = .replied code tx tokenSet sessionId) :
    s'.callbacks i = some callback := by
  have hother : ∀ {j : ℕ} {other : Callback Browser} (stage : LoginStage),
      s.callbacks j = some other → other.stage ≠ .replied code tx tokenSet sessionId →
      Function.update s.callbacks j (some { other with stage := stage }) i = some callback := by
    intro j other stage hj hwaits
    have hne : i ≠ j := by
      rintro rfl
      obtain rfl := Option.some.inj (hcallback.symm.trans hj)
      exact hwaits hstage
    rw [Function.update_of_ne hne]
    exact hcallback
  cases h with
  | @callbackController j browser query stage hnone _ =>
      have hne : i ≠ j := by
        rintro rfl
        rw [hnone] at hcallback
        simp at hcallback
      show Function.update s.callbacks j _ i = _
      rw [Function.update_of_ne hne]
      exact hcallback
  | raised hj hwaits hact => exact hother _ hj (hwaits _ _ _ _)
  | redeemed hj hbefore hredeems => exact hother _ hj (by simp [hbefore])
  | verified hj hbefore hverified => exact hother _ hj (by simp [hbefore])
  | upserted hj hbefore hupsert => exact hother _ hj (by simp [hbefore])
  | inserted hj hbefore hinsert => exact hother _ hj (by simp [hbefore])
  | _ => exact hcallback

end

/-! ### What a callback has gone through -/

/-- The request has the state of the transaction that its browser held. -/
structure Begun (steps : List (Logins Browser × Act Browser)) (s : Logins Browser) (i : ℕ)
    (browser : Browser) (query : CallbackQuery) (code : String) (tx : Tx) : Prop where
  held : ∃ entry ∈ steps, entry.2 = .callbackController i browser query ∧
    entry.1.txCookie browser = some tx
  created : (browser, tx) ∈ s.created
  code : query.code = some code
  state : query.state = some tx.state

/-- The token is for who has authenticated for the code. -/
structure Redeemed (config : LoginConfig Browser) (s : Logins Browser) (code : String) (tx : Tx)
    (idToken : List (String × Json)) (authentication : Authentication Browser) : Prop where
  issued : s.codes.lookup code = some authentication
  codeChallenge : authentication.url.codeChallenge = some (config.challenge tx.verifier)
  subject : idToken.lookup "sub" = some (.str authentication.subject)
  nonce : ∀ nonce, idToken.lookup "nonce" = some (.str nonce) →
    authentication.url.nonce = some nonce

/-- The token has the nonce of the transaction. -/
structure Verified (config : LoginConfig Browser) (steps : List (Logins Browser × Act Browser))
    (s : Logins Browser) (i : ℕ) (browser : Browser) (query : CallbackQuery) (code : String)
    (tx : Tx) (idToken : List (String × Json)) : Prop where
  begun : Begun steps s i browser query code tx
  redeemed : ∃ authentication, Redeemed config s code tx idToken authentication
  nonce : idToken.lookup "nonce" = some (.str tx.nonce)

/-- What is known of a callback by the place where it waits. -/
def Sound (config : LoginConfig Browser) (steps : List (Logins Browser × Act Browser))
    (s : Logins Browser) (i : ℕ) (callback : Callback Browser) : Prop :=
  match callback.stage with
  | .exchangeAuthorizationCode code tx => Begun steps s i callback.browser callback.query code tx
  | .verifyIdToken code tx tokenSet =>
      Begun steps s i callback.browser callback.query code tx ∧
      ∃ authentication, Redeemed config s code tx tokenSet.idToken authentication
  | .upsertUser code tx tokenSet input =>
      Verified config steps s i callback.browser callback.query code tx tokenSet.idToken ∧
      input.auth0Sub = textOf (tokenSet.idToken.lookup "sub")
  | .insertSession code tx tokenSet _ userId =>
      Verified config steps s i callback.browser callback.query code tx tokenSet.idToken ∧
      (userId, textOf (tokenSet.idToken.lookup "sub")) ∈ s.bff.tables.accounts
  | .replied code tx tokenSet sessionId =>
      Verified config steps s i callback.browser callback.query code tx tokenSet.idToken ∧
      ∃ row, s.bff.tables.sessions sessionId = some row ∧
        (row.userId, textOf (tokenSet.idToken.lookup "sub")) ∈ s.bff.tables.accounts
  | _ => True

/-- A callback goes on only with the cookie and the state of one transaction. -/
theorem enterCallback_cases (query : CallbackQuery) (txCookie : Option Tx) :
    (∃ message, enterCallback query txCookie = .refused message) ∨
    ∃ code tx, enterCallback query txCookie = .exchangeAuthorizationCode code tx ∧
      query.code = some code ∧ query.state = some tx.state ∧ txCookie = some tx := by
  unfold enterCallback
  split
  · rename_i code state hcode hstate
    split
    · exact Or.inl ⟨_, rfl⟩
    · split
      · exact Or.inl ⟨_, rfl⟩
      · rename_i tx
        split
        · exact Or.inl ⟨_, rfl⟩
        · rename_i hstate'
          refine Or.inr ⟨code, tx, rfl, hcode, ?_, rfl⟩
          rw [hstate, not_not.mp hstate']
  · exact Or.inl ⟨_, rfl⟩

theorem redeemed_of_redeems {tokenSet : CodeTokens}
    (h : s.redeems config code tx tokenSet = true) :
    ∃ authentication, Redeemed config s code tx tokenSet.idToken authentication := by
  obtain ⟨authentication, hissued, h⟩ := (Option.any_eq_true _ _).mp h
  simp only [Bool.and_eq_true, decide_eq_true_eq] at h
  obtain ⟨⟨hchallenge, hsub⟩, hnonce⟩ := h
  refine ⟨authentication, hissued, hchallenge, isText_iff.mp hsub, fun nonce htoken => ?_⟩
  split at hnonce
  · rename_i nonce' hurl
    rw [isText_iff.mp hnonce] at htoken
    rw [hurl]
    simpa using htoken
  · rw [htoken] at hnonce
    simp at hnonce

section Mono

variable {browser : Browser} {query : CallbackQuery}

theorem Begun.mono (h : Begun steps s i browser query code tx) (hgrows : Grows s s') :
    Begun (entry :: steps) s' i browser query code tx where
  held := by
    obtain ⟨entering, hmem, hheld⟩ := h.held
    exact ⟨entering, List.mem_cons_of_mem _ hmem, hheld⟩
  created := hgrows.created _ h.created
  code := h.code
  state := h.state

theorem Redeemed.mono {authentication : Authentication Browser}
    (h : Redeemed config s code tx idToken authentication) (hgrows : Grows s s') :
    Redeemed config s' code tx idToken authentication :=
  ⟨hgrows.codes _ _ h.issued, h.codeChallenge, h.subject, h.nonce⟩

theorem Verified.mono (h : Verified config steps s i browser query code tx idToken)
    (hgrows : Grows s s') :
    Verified config (entry :: steps) s' i browser query code tx idToken where
  begun := h.begun.mono hgrows
  redeemed := by
    obtain ⟨authentication, hredeemed⟩ := h.redeemed
    exact ⟨authentication, hredeemed.mono hgrows⟩
  nonce := h.nonce

theorem Sound.mono (h : Sound config steps s i callback) (hgrows : Grows s s') :
    Sound config (entry :: steps) s' i callback := by
  obtain ⟨browser, query, stage⟩ := callback
  cases stage with
  | exchangeAuthorizationCode code tx => exact Begun.mono h hgrows
  | verifyIdToken code tx tokenSet =>
      obtain ⟨hbegun, authentication, hredeemed⟩ := h
      exact ⟨hbegun.mono hgrows, authentication, hredeemed.mono hgrows⟩
  | upsertUser code tx tokenSet input =>
      obtain ⟨hverified, hsub⟩ := h
      exact ⟨hverified.mono hgrows, hsub⟩
  | insertSession code tx tokenSet input userId =>
      obtain ⟨hverified, haccount⟩ := h
      exact ⟨hverified.mono hgrows, hgrows.accounts _ haccount⟩
  | replied code tx tokenSet sessionId =>
      obtain ⟨hverified, row, hrow, haccount⟩ := h
      obtain ⟨row', hrow', huserId⟩ := hgrows.rows _ _ hrow
      exact ⟨hverified.mono hgrows, row', hrow', huserId ▸ hgrows.accounts _ haccount⟩
  | _ => exact trivial

end Mono

/-! ### The law of logins -/

structure BindingLaw (config : LoginConfig Browser) (steps : List (Logins Browser × Act Browser))
    (s : Logins Browser) : Prop where
  created : ∀ browser tx, (browser, tx) ∈ s.created ↔
    ∃ entry ∈ steps, entry.2 = .loginController browser tx
  unique : ∀ entry ∈ s.created, ∀ entry' ∈ s.created, entry.2.nonce = entry'.2.nonce →
    entry = entry'
  received : ∀ entry ∈ s.received, entry ∈ s.created
  held : ∀ browser tx, s.txCookie browser = some tx → (browser, tx) ∈ s.created
  /-- Who authenticates with a nonce that the adversary has not seen has been sent there. -/
  authenticated : ∀ issued ∈ s.codes, ∀ entry ∈ s.created, config.adversary entry.1 = false →
    issued.2.url.nonce = some entry.2.nonce →
    issued.2.visitor = entry.1 ∧ issued.2.url = entry.2.url config
  sound : ∀ i callback, s.callbacks i = some callback → Sound config steps s i callback
  ids : (s.bff.tables.users.map User.id).Nodup
  sessionCookie : ∀ browser id, s.sessionCookie browser = some id →
    ∃ i callback code tx tokenSet, s.callbacks i = some callback ∧ callback.browser = browser ∧
      callback.stage = .replied code tx tokenSet id

namespace BindingLaw

theorem start {tables : Tables} (hids : (tables.users.map User.id).Nodup) :
    BindingLaw config [] (Logins.start tables) where
  created := by simp [Logins.start]
  unique := by simp [Logins.start]
  received := by simp [Logins.start]
  held := by simp [Logins.start]
  authenticated := by simp [Logins.start]
  sound := by simp [Logins.start]
  ids := hids
  sessionCookie := by simp [Logins.start]

theorem ids_of_bff (h : BindingLaw config steps s) {bffAct : Bff.Act} {bff : State}
    (hs : s.bff.step config.refreshWindowMs bffAct = some bff) :
    (bff.tables.users.map User.id).Nodup := by
  have hids := h.ids
  rw [← Tables.map_fst_accounts] at hids ⊢
  rcases (State.turn_of_step hs).accounts with hsame | ⟨user, happend, hnew⟩
  · rw [hsame]
    exact hids
  · rw [happend, List.map_append]
    refine List.nodup_append'.mpr ⟨hids, List.nodup_singleton _, ?_⟩
    rw [Tables.map_fst_accounts]
    simpa using hnew

variable [DecidableEq Browser]

theorem created_step (h : BindingLaw config steps s) (hturn : Turn config s act s')
    (browser : Browser) (tx : Tx) :
    (browser, tx) ∈ s'.created ↔
      ∃ entry ∈ (s, act) :: steps, entry.2 = .loginController browser tx := by
  rcases hturn.created with ⟨hsame, hact⟩ | ⟨browser', tx', rfl, -, hcons⟩
  · rw [hsame, h.created]
    constructor
    · rintro ⟨entry, hmem, hlogin⟩
      exact ⟨entry, List.mem_cons_of_mem _ hmem, hlogin⟩
    · rintro ⟨entry, hmem, hlogin⟩
      rcases List.mem_cons.mp hmem with rfl | hmem
      · exact absurd hlogin (hact browser tx)
      · exact ⟨entry, hmem, hlogin⟩
  · rw [hcons, List.mem_cons, h.created]
    constructor
    · rintro (heq | ⟨entry, hmem, hlogin⟩)
      · obtain ⟨rfl, rfl⟩ := Prod.mk.inj heq
        exact ⟨_, List.mem_cons_self, rfl⟩
      · exact ⟨entry, List.mem_cons_of_mem _ hmem, hlogin⟩
    · rintro ⟨entry, hmem, hlogin⟩
      rcases List.mem_cons.mp hmem with rfl | hmem
      · injection hlogin with hbrowser htx
        exact Or.inl (by rw [hbrowser, htx])
      · exact Or.inr ⟨entry, hmem, hlogin⟩

theorem unique_step (h : BindingLaw config steps s) (hturn : Turn config s act s') :
    ∀ entry ∈ s'.created, ∀ entry' ∈ s'.created, entry.2.nonce = entry'.2.nonce →
      entry = entry' := by
  rcases hturn.created with ⟨hsame, -⟩ | ⟨browser, tx, -, hfresh, hcons⟩
  · rw [hsame]
    exact h.unique
  · rw [hcons]
    intro entry hentry entry' hentry' hnonce
    rcases List.mem_cons.mp hentry with rfl | hold
    · rcases List.mem_cons.mp hentry' with rfl | hold'
      · rfl
      · exact absurd hnonce.symm (hfresh.1 entry' hold')
    · rcases List.mem_cons.mp hentry' with rfl | hold'
      · exact absurd hnonce (hfresh.1 entry hold)
      · exact h.unique entry hold entry' hold' hnonce

theorem held_step (h : BindingLaw config steps s) (hturn : Turn config s act s')
    (browser : Browser) (tx : Tx) (hcookie : s'.txCookie browser = some tx) :
    (browser, tx) ∈ s'.created := by
  cases hturn with
  | loginController hfresh => exact List.mem_cons_of_mem _ (h.held _ _ hcookie)
  | receiveLogin hcreated =>
      rcases update_eq_some hcookie with ⟨rfl, hnew⟩ | ⟨-, hold⟩
      · obtain rfl := Option.some.inj hnew
        exact hcreated
      · exact h.held _ _ hold
  | receiveCallback hcallback hstage =>
      rcases update_eq_some hcookie with ⟨rfl, hkept⟩ | ⟨-, hold⟩
      · unfold clearCookie at hkept
        split at hkept
        · simp at hkept
        · exact h.held _ _ hkept
      · exact h.held _ _ hold
  | dropTx =>
      rcases update_eq_some hcookie with ⟨-, hnone⟩ | ⟨-, hold⟩
      · simp at hnone
      · exact h.held _ _ hold
  | _ => exact h.held _ _ hcookie

theorem authenticated_step (h : BindingLaw config steps s) (hturn : Turn config s act s') :
    ∀ issued ∈ s'.codes, ∀ entry ∈ s'.created, config.adversary entry.1 = false →
      issued.2.url.nonce = some entry.2.nonce →
      issued.2.visitor = entry.1 ∧ issued.2.url = entry.2.url config := by
  cases hturn with
  | loginController hfresh =>
      intro issued hissued entry hentry hhonest hnonce
      rcases List.mem_cons.mp hentry with rfl | hold
      · exact absurd hnonce (hfresh.2 issued hissued)
      · exact h.authenticated issued hissued entry hold hhonest hnonce
  | authorize hnew hvisits =>
      intro issued hissued entry hentry hhonest hnonce
      rcases List.mem_cons.mp hissued with rfl | hold
      · rcases hvisits with ⟨redirect, hreceived, hvisitor, hurl⟩ | hunknown
        · -- The redirect carries the nonce, so it is the one of this transaction.
          have hsame : redirect = entry := by
            apply h.unique redirect (h.received redirect hreceived) entry hentry
            rw [← hurl] at hnonce
            exact Option.some.inj hnonce
          subst hsame
          exact ⟨hvisitor.symm, hurl.symm⟩
        · exact absurd hnonce (hunknown entry hentry hhonest)
      · exact h.authenticated issued hold entry hentry hhonest hnonce
  | _ => exact h.authenticated

theorem received_step (h : BindingLaw config steps s) (hturn : Turn config s act s') :
    ∀ entry ∈ s'.received, entry ∈ s'.created := by
  cases hturn with
  | loginController hfresh =>
      intro entry hentry
      exact List.mem_cons_of_mem _ (h.received entry hentry)
  | receiveLogin hcreated =>
      intro entry hentry
      rcases List.mem_cons.mp hentry with rfl | hold
      · exact hcreated
      · exact h.received entry hold
  | _ => exact h.received

theorem ids_step (h : BindingLaw config steps s) (hturn : Turn config s act s') :
    (s'.bff.tables.users.map User.id).Nodup := by
  cases hturn with
  | upserted hcallback hstage hupsert =>
      exact h.ids_of_bff (step_upsertUser config.refreshWindowMs hupsert)
  | inserted hcallback hstage hinsert => exact h.ids_of_bff hinsert
  | bff hs => exact h.ids_of_bff hs
  | _ => exact h.ids

theorem sessionCookie_step (h : BindingLaw config steps s) (hturn : Turn config s act s')
    (browser : Browser) (id : String) (hcookie : s'.sessionCookie browser = some id) :
    ∃ i callback code tx tokenSet, s'.callbacks i = some callback ∧ callback.browser = browser ∧
      callback.stage = .replied code tx tokenSet id := by
  have hold : s.sessionCookie browser = some id →
      ∃ i callback code tx tokenSet, s'.callbacks i = some callback ∧ callback.browser = browser ∧
        callback.stage = .replied code tx tokenSet id := by
    intro hbefore
    obtain ⟨i, callback, code, tx, tokenSet, hcallback, hbrowser, hstage⟩ :=
      h.sessionCookie browser id hbefore
    exact ⟨i, callback, code, tx, tokenSet, hturn.replied_kept hcallback hstage, hbrowser, hstage⟩
  cases hturn with
  | @receiveCallback i callback code tx tokenSet sessionId hcallback hstage =>
      rcases update_eq_some hcookie with ⟨rfl, hnew⟩ | ⟨-, hbefore⟩
      · obtain rfl := Option.some.inj hnew
        exact ⟨i, callback, code, tx, tokenSet, hcallback, rfl, hstage⟩
      · exact hold hbefore
  | dropSession =>
      rcases update_eq_some hcookie with ⟨-, hnone⟩ | ⟨-, hbefore⟩
      · simp at hnone
      · exact hold hbefore
  | _ => exact hold hcookie

/-- What a step makes of the callback that it moves on. -/
theorem sound_step (h : BindingLaw config steps s) (hturn : Turn config s act s') :
    ∀ i callback, s'.callbacks i = some callback →
      Sound config ((s, act) :: steps) s' i callback := by
  have hold : ∀ i callback, s.callbacks i = some callback →
      Sound config ((s, act) :: steps) s' i callback :=
    fun i callback hcallback => (h.sound i callback hcallback).mono hturn.grows
  have hmoved : ∀ {i : ℕ} {moved : Callback Browser},
      Sound config ((s, act) :: steps) s' i moved → ∀ j callback,
      Function.update s.callbacks i (some moved) j = some callback →
      Sound config ((s, act) :: steps) s' j callback := by
    intro i moved hsound j callback hj
    rcases update_eq_some hj with ⟨rfl, hnew⟩ | ⟨-, hbefore⟩
    · obtain rfl := Option.some.inj hnew
      exact hsound
    · exact hold j callback hbefore
  cases hturn with
  | @callbackController i browser query stage hnone hstage =>
      refine hmoved ?_
      rcases enterCallback_cases query (s.txCookie browser) with
        ⟨message, henter⟩ | ⟨code, tx, henter, hcode, hstate, hcookie⟩
      · rw [hstage, henter]
        exact trivial
      · rw [hstage, henter]
        exact ⟨⟨_, List.mem_cons_self, rfl, hcookie⟩, h.held _ _ hcookie, hcode, hstate⟩
  | raised hcallback hwaits hact => exact hmoved trivial
  | @redeemed i callback code tx tokenSet hcallback hstage hredeems =>
      have hsound := hold i callback hcallback
      rw [Sound, hstage] at hsound
      exact hmoved ⟨hsound, redeemed_of_redeems hredeems⟩
  | @verified i good csrfToken now callback code tx tokenSet hcallback hstage hverified =>
      have hsound := hold i callback hcallback
      rw [Sound, hstage] at hsound
      obtain ⟨hbegun, hredeemed⟩ := hsound
      unfold Bff.verifyIdToken at hverified
      obtain ⟨-, hnonce⟩ := (Bool.and_eq_true ..).mp hverified
      exact hmoved ⟨⟨hbegun, hredeemed, isText_iff.mp hnonce⟩, rfl⟩
  | @upserted i drawn callback code tx tokenSet input tables userId hcallback hstage hupsert =>
      have hsound := hold i callback hcallback
      rw [Sound, hstage] at hsound
      obtain ⟨hverified, hsub⟩ := hsound
      refine hmoved ⟨hverified, ?_⟩
      rw [← hsub]
      show (userId, (input.user drawn).auth0Sub) ∈ tables.accounts
      rcases Tables.accounts_upsertUser hupsert with ⟨hsame, haccount⟩ | ⟨happend, rfl, -⟩
      · rw [hsame]
        exact haccount
      · rw [happend]
        exact List.mem_append_right _ List.mem_cons_self
  | @inserted i sessionId now callback code tx tokenSet input userId bff hcallback hstage hinsert =>
      have hsound := hold i callback hcallback
      rw [Sound, hstage] at hsound
      obtain ⟨hverified, haccount⟩ := hsound
      cases State.turn_of_step hinsert with
      | @insertSession _ _ _ expiresAt _ htime hid hnew huser =>
          refine hmoved ⟨hverified, input.session.row userId expiresAt now, ?_, haccount⟩
          exact Tables.sessions_insertSession.trans (if_pos rfl)
  | _ => exact hold

/-- **Every step keeps the law.** -/
theorem step (h : BindingLaw config steps s) (hs : s.step config act = some s') :
    BindingLaw config ((s, act) :: steps) s' where
  created := h.created_step (turn_of_step hs)
  unique := h.unique_step (turn_of_step hs)
  received := h.received_step (turn_of_step hs)
  held := h.held_step (turn_of_step hs)
  authenticated := h.authenticated_step (turn_of_step hs)
  sound := h.sound_step (turn_of_step hs)
  ids := h.ids_step (turn_of_step hs)
  sessionCookie := h.sessionCookie_step (turn_of_step hs)

theorem of_run {tables : Tables} (hids : (tables.users.map User.id).Nodup)
    (h : Run config (Logins.start tables) steps s) : BindingLaw config steps s := by
  induction h with
  | start => exact .start hids
  | step _ hs ih => exact ih.step hs

end BindingLaw

/-! ### Whose session it is -/

/-- A session is for who has logged in with the transaction of its browser. -/
structure BoundTo (config : LoginConfig Browser) (steps : List (Logins Browser × Act Browser))
    (s : Logins Browser) (i : ℕ) (callback : Callback Browser) (code : String) (tx : Tx)
    (tokenSet : CodeTokens) (sessionId : String) (authentication : Authentication Browser) :
    Prop where
  /-- `loginController` created the transaction for the browser, and no other with the nonce. -/
  created : ∃ entry ∈ steps, entry.2 = .loginController callback.browser tx
  unique : ∀ entry ∈ steps, ∀ browser tx', entry.2 = .loginController browser tx' →
    tx'.nonce = tx.nonce → browser = callback.browser ∧ tx' = tx
  /-- The browser held it when it made the request. -/
  held : ∃ entry ∈ steps, entry.2 = .callbackController i callback.browser callback.query ∧
    entry.1.txCookie callback.browser = some tx
  state : callback.query.state = some tx.state
  nonce : tokenSet.idToken.lookup "nonce" = some (.str tx.nonce)
  brought : callback.query.code = some code
  /-- The code is for who authenticated at its URL; Auth0 only hands the state back. -/
  issued : s.codes.lookup code = some authentication
  url : authentication.url.nonce = some tx.nonce ∧
    authentication.url.codeChallenge = some (config.challenge tx.verifier)
  own : config.adversary callback.browser = false →
    authentication.visitor = callback.browser ∧ authentication.url = tx.url config
  /-- The session is theirs. -/
  subject : tokenSet.idToken.lookup "sub" = some (.str authentication.subject)
  session : ∃ row, s.bff.tables.sessions sessionId = some row ∧
    (s.bff.tables.users.find? fun user => user.id = row.userId).map User.auth0Sub =
      some authentication.subject

/--
**A login is bound to the browser that started it.**  Whatever the browsers do, in any order, a
callback sets the session cookie only if its state and the nonce of the token are those of one
transaction, which was created for the browser and which the browser held when it called; and the
session is for who has authenticated at the URL of the transaction.  The adversary may have others
authenticate at a URL of its own; where the browser is not the adversary's, they did so in the
browser itself, at the URL that it was sent to.  A browser has no session cookies but these.
-/
theorem login_bound [DecidableEq Browser] (config : LoginConfig Browser) (tables : Tables)
    (hids : (tables.users.map User.id).Nodup) (hrun : Run config (Logins.start tables) steps s) :
    (∀ i callback code tx tokenSet sessionId, s.callbacks i = some callback →
      callback.stage = .replied code tx tokenSet sessionId →
      ∃ authentication,
        BoundTo config steps s i callback code tx tokenSet sessionId authentication) ∧
    ∀ browser id, s.sessionCookie browser = some id →
      ∃ i callback code tx tokenSet, s.callbacks i = some callback ∧ callback.browser = browser ∧
        callback.stage = .replied code tx tokenSet id := by
  have hlaw := BindingLaw.of_run hids hrun
  refine ⟨fun i callback code tx tokenSet sessionId hcallback hstage => ?_, hlaw.sessionCookie⟩
  have hsound := hlaw.sound i callback hcallback
  rw [Sound, hstage] at hsound
  obtain ⟨⟨hbegun, ⟨authentication, hredeemed⟩, hnonce⟩, row, hrow, haccount⟩ := hsound
  have hurl := hredeemed.nonce tx.nonce hnonce
  have hissued : (code, authentication) ∈ s.codes := by
    obtain ⟨before, after, happend, -⟩ := List.lookup_eq_some_iff.mp hredeemed.issued
    rw [happend]
    exact List.mem_append_right _ List.mem_cons_self
  refine ⟨authentication, (hlaw.created _ _).mp hbegun.created, ?_, hbegun.held, hbegun.state,
    hnonce, hbegun.code, hredeemed.issued, ⟨hurl, hredeemed.codeChallenge⟩, ?_, hredeemed.subject,
    row, hrow, ?_⟩
  · intro entry hentry browser tx' hlogin hsame
    have hother := (hlaw.created browser tx').mpr ⟨entry, hentry, hlogin⟩
    exact Prod.mk.inj (hlaw.unique _ hother _ hbegun.created hsame)
  · intro hhonest
    exact hlaw.authenticated _ hissued _ hbegun.created hhonest hurl
  · rw [hredeemed.subject] at haccount
    exact Tables.find_of_account hlaw.ids haccount

end Logins

end CommercePlatform.Bff

/-! ### A login that another one is mixed into -/

namespace CommercePlatform.Bff.Mixed

open Js Logins

inductive Browser where
  | alice
  | mallory
  deriving DecidableEq

def config : LoginConfig Browser where
  refreshWindowMs := 120000
  sessionCookieDomain := "localhost"
  sha256 verifier := "s256." ++ verifier
  adversary browser := browser = .mallory

def tables : Tables where
  users := []
  groups := []
  privileges := []
  groupPrivileges := []
  userGroup := []
  sessions _ := none

def tx : Tx where
  verifier := "0a01"
  state := "0a02"
  nonce := "0a03"

def malloryTx : Tx where
  verifier := "0b01"
  state := "0b02"
  nonce := "0b03"

def tokenSet : CodeTokens where
  idToken := [("sub", .str "auth0|alice"), ("nonce", .str "0a03"), ("name", .str "Alice")]
  accessToken := some (.str "ey.alice")
  refreshToken := some (.str "v1.alice")
  expiresIn := some (.num (.finite 86400))

def sessionId : String := "3e5c1a90-77d2-4b86-9c0f-2f4b8e6d7a05"

/-- The adversary logs in, and has the other browser visit the link that it was sent. -/
def acts : List (Logins.Act Browser) :=
  [.loginController .mallory malloryTx, .receiveLogin .mallory malloryTx,
    .authorize "code-1"
      { visitor := .mallory, url := malloryTx.url config, subject := "auth0|mallory" },
    .loginController .alice tx, .receiveLogin .alice tx,
    .callbackController 1 .alice { code := some "code-1", state := some "0b02" },
    .authorize "code-2" { visitor := .alice, url := tx.url config, subject := "auth0|alice" },
    .callbackController 2 .alice { code := some "code-2", state := some "0a02" },
    .exchangeAuthorizationCode 2 (some tokenSet), .verifyIdToken 2 true "77bb" 1000,
    .upsertUser 2 "u7", .insertSession 2 sessionId 1001, .receiveCallback 2]

/-- The session that the browser gets is for its own user. -/
theorem bound : ∃ steps s callback, Run config (Logins.start tables) steps s ∧
    s.sessionCookie .alice = some sessionId ∧ callback.browser = .alice ∧
    ∃ i code tx tokenSet authentication,
      BoundTo config steps s i callback code tx tokenSet sessionId authentication ∧
      authentication.subject = "auth0|alice" := by
  have hout : ((run config acts (Logins.start tables)).any fun s =>
      s.sessionCookie .alice = some sessionId && s.codes.all fun issued =>
        issued.2.visitor = .mallory || issued.2.subject = "auth0|alice") = true := by
    decide +kernel
  obtain ⟨s, hs, hout⟩ := (Option.any_eq_true _ _).mp hout
  simp only [Bool.and_eq_true, decide_eq_true_eq] at hout
  obtain ⟨hcookie, hcodes⟩ := hout
  obtain ⟨steps, hrun⟩ := Run.start.of_run hs
  obtain ⟨hbound, hcookies⟩ := login_bound config tables (by simp [tables]) hrun
  obtain ⟨i, callback, code, tx, tokenSet, hcallback, hbrowser, hstage⟩ :=
    hcookies .alice sessionId hcookie
  obtain ⟨authentication, hby⟩ := hbound i callback code tx tokenSet sessionId hcallback hstage
  refine ⟨steps, s, callback, hrun, hcookie, hbrowser, i, code, tx, tokenSet, authentication, hby,
    ?_⟩
  obtain ⟨hvisitor, -⟩ := hby.own (by rw [hbrowser]; rfl)
  obtain ⟨before, after, happend, -⟩ := List.lookup_eq_some_iff.mp hby.issued
  have hissued := List.all_eq_true.mp hcodes (code, authentication) (by rw [happend]; simp)
  simpa [hvisitor, hbrowser] using hissued

end CommercePlatform.Bff.Mixed
