import Mathlib
import GmshopEdge.Inventory.Imports

/-!
# Authentication providers

The operations on the authentication providers and on the accounts linked to them: `setAuthProviderEnabledFn`,
`saveAuthProviderFn` and `deleteAuthProviderFn` (`auth/server/provider-admin.ts`) and the unlinking of an account, with the
checks of `auth/server/provider-policy.ts` that a change leaves everybody a login method.

What the checks of secrets, bot tokens and email delivery come to is an argument of an operation, as they only refuse it.
-/

namespace Gmshop

open List Sql Utf16

/-! ## Providers -/

/-- `authProviderTypes`. -/
inductive AuthProviderType where
  | email
  | social
  deriving DecidableEq

def builtInSocialProviderIds : List String :=
  ["apple", "discord", "github", "google", "line", "microsoft", "telegram", "wechat"]

/-- `storedAuthProviderSchema`, the fields that decide who can sign in. -/
structure StoredAuthProvider where
  id : Id
  providerId : String
  providerType : AuthProviderType
  passwordLoginEnabled : Bool := true
  emailOtpEnabled : Bool := false
  enabled : Bool
  sortOrder : Nat
  deriving DecidableEq

/-- What `storedAuthProvidersSchema` lets through. -/
structure ProviderList (entries : List StoredAuthProvider) : Prop where
  length : entries.length ≤ 20
  ids : (entries.map (·.id)).Nodup
  providerIds : (entries.map (·.providerId)).Nodup
  social : ∀ p ∈ entries, p.providerType = .social → p.providerId ∈ builtInSocialProviderIds

instance (entries : List StoredAuthProvider) : Decidable (ProviderList entries) :=
  decidable_of_iff (entries.length ≤ 20 ∧ (entries.map (·.id)).Nodup ∧ (entries.map (·.providerId)).Nodup ∧
      ∀ p ∈ entries, p.providerType = .social → p.providerId ∈ builtInSocialProviderIds)
    ⟨fun ⟨h1, h2, h3, h4⟩ => ⟨h1, h2, h3, h4⟩, fun ⟨h1, h2, h3, h4⟩ => ⟨h1, h2, h3, h4⟩⟩

/-- The stored providers; the email provider goes by the provider id of passwords. -/
structure StoredProviders where
  entries : List StoredAuthProvider
  listed : ProviderList entries
  email : ∀ p ∈ entries, p.providerType = .email → p.providerId = "credential"

def initialStoredAuthProviders : StoredProviders where
  entries := [{ id := 0, providerId := "credential", providerType := .email, enabled := true, sortOrder := 10 }]
  listed := by decide
  email := by decide

/-- `authProviderInputSchema`. -/
structure AuthProviderInput where
  id : Option Id := none
  providerId : String
  providerType : AuthProviderType
  passwordLoginEnabled : Bool := true
  emailOtpEnabled : Bool := false
  enabled : Bool := false
  sortOrder : Nat := 100
  social : providerType = .social → providerId ∈ builtInSocialProviderIds := by decide
  email : providerType = .email → providerId = "credential" := by decide
  method : providerType = .email → enabled = true → passwordLoginEnabled = true ∨ emailOtpEnabled = true := by decide

/-! ## Users -/

/-- What the checks read of `accounts`. -/
structure AuthAccount where
  id : Id
  accountId : String
  providerId : String
  userId : Id

instance : KeyedRow AuthAccount where
  clash a b := a.id == b.id
  key := AuthAccount.id
  clash_of_key a b h := by simp [h]

/-- What the checks read of `users`. -/
structure AuthUser where
  id : Id
  email : Utf16

instance : KeyedRow AuthUser where
  clash a b := a.id == b.id
  key := AuthUser.id
  clash_of_key a b h := by simp [h]

structure AuthDb where
  providers : StoredProviders
  accounts : Table AuthAccount
  users : Table AuthUser

/-- `isInternalIdentityEmail`; no other character has a letter of the two domains for its lower case. -/
def isInternalIdentityEmail (email : Utf16) : Bool :=
  let normalized := (trim email).map lowerUnit
  (ascii "@telegram.invalid").isSuffixOf normalized || (ascii "@identity.gmshop.invalid").isSuffixOf normalized

/-! ## Checks -/

inductive AuthError where
  | domain (e : DomainError)
  | schema

def authProviderWouldLockAccounts : AuthError :=
  .domain ⟨"auth_provider_would_lock_accounts", 409, "Link another login method before disabling this provider"⟩

def authLastLoginMethod : AuthError :=
  .domain ⟨"auth_last_login_method", 409, "Link another enabled login method before unlinking this account"⟩

def authProviderNotFound : AuthError :=
  .domain ⟨"auth_provider_not_found", 404, "Authentication provider not found"⟩

def authProviderConflict : AuthError :=
  .domain ⟨"auth_provider_conflict", 409, "Authentication provider ID already exists"⟩

def authProviderIdInUse : AuthError :=
  .domain ⟨"auth_provider_id_in_use", 409, "Provider IDs with linked accounts cannot be changed"⟩

def authProviderProtected : AuthError :=
  .domain ⟨"auth_provider_protected", 409, "Credential authentication cannot be deleted"⟩

def authProviderInUse : AuthError :=
  .domain ⟨"auth_provider_in_use", 409, "Disable providers that have linked accounts"⟩

/-- `configured.find(enabled && providerType === "email")`. -/
def enabledEmail (configured : List StoredAuthProvider) : Option StoredAuthProvider :=
  configured.find? fun p => p.enabled && p.providerType == .email

/-- `email?.emailOtpEnabled && !isInternalIdentityEmail(address)`. -/
def codeReaches (email : Option StoredAuthProvider) (address : Utf16) : Bool :=
  email.any (·.emailOtpEnabled) && !isInternalIdentityEmail address

/-- A row of the query: a user with one of the accounts that remain, if there is one. -/
structure AlternativeRow where
  userId : Id
  email : Utf16
  providerId : Option String

def leftJoin (user : AuthUser) : List AuthAccount → List AlternativeRow
  | [] => [⟨user.id, user.email, none⟩]
  | accounts => accounts.map fun account => ⟨user.id, user.email, some account.providerId⟩

def AuthDb.alternativeRows (db : AuthDb) (providerId : String) : List AlternativeRow :=
  if providerId = "credential" then
    db.users.rows.flatMap fun user => leftJoin user (db.accounts.rows.filter fun a => a.userId == user.id)
  else (db.accounts.rows.filter fun owner => owner.providerId == providerId).flatMap fun owner =>
      match db.users.get? owner.userId with
      | none => []
      | some user => leftJoin user (db.accounts.rows.filter fun a => a.userId == owner.userId && a.id != owner.id)

def groupAlternatives (rows : List AlternativeRow) : Record Id (Utf16 × List String) :=
  rows.foldl (fun alternatives row =>
    let user := (alternatives.get row.userId).getD (row.email, [])
    alternatives.set row.userId (user.1, user.2 ++ row.providerId.toList)) .empty

def assertAuthProviderCanBeDisabled (db : AuthDb) (providerId : String) (configured : List StoredAuthProvider) :
    Except AuthError Unit :=
  let enabled := (configured.filter fun p => p.enabled && p.providerId != providerId).map (·.providerId)
  let email := enabledEmail configured
  let alternatives := groupAlternatives (db.alternativeRows providerId)
  if alternatives.values.any fun user => !(user.2.any fun id => enabled.contains id) && !codeReaches email user.1 then
    .error authProviderWouldLockAccounts
  else .ok ()

structure UnlinkInput where
  userId : Id
  providerId : String
  accountId : Option String := none

def UnlinkInput.names (input : UnlinkInput) (a : AuthAccount) : Bool :=
  a.userId == input.userId && a.providerId == input.providerId && input.accountId.all fun id => a.accountId == id

def assertAccountCanBeUnlinked (db : AuthDb) (input : UnlinkInput) : Except AuthError Unit :=
  match db.accounts.rows.find? input.names with
  | none => .ok ()
  | some target =>
    let enabled := (db.providers.entries.filter (·.enabled)).map (·.providerId)
    let email := enabledEmail db.providers.entries
    let alternatives := db.accounts.rows.filter fun a => a.userId == input.userId && a.id != target.id
    if (!alternatives.any fun a => enabled.contains a.providerId) &&
        !((db.users.get? input.userId).any fun user => codeReaches email user.email) then
      .error authLastLoginMethod
    else .ok ()

def assertProviderIdCanChange (db : AuthDb) (providerId : String) : Except AuthError Unit :=
  if db.accounts.rows.any fun a => a.providerId == providerId then .error authProviderIdInUse else .ok ()

/-! ## Operations -/

/-- `state.settings.providers.map(…)`. -/
def setEnabled (entries : List StoredAuthProvider) (id : Id) (enabled : Bool) : List StoredAuthProvider :=
  entries.map fun p => if p.id = id then { p with enabled := enabled } else p

theorem setEnabled_map {β : Type} (g : StoredAuthProvider → β) (entries : List StoredAuthProvider) (id : Id)
    (enabled : Bool) (hg : ∀ p, g { p with enabled := enabled } = g p) :
    (setEnabled entries id enabled).map g = entries.map g := by
  rw [setEnabled, map_map]
  refine map_congr_left fun p _ => ?_
  show g (if p.id = id then { p with enabled := enabled } else p) = g p
  split
  · exact hg p
  · rfl

variable {q : StoredAuthProvider} {entries : List StoredAuthProvider}

theorem mem_setEnabled {id : Id} {enabled : Bool} (h : q ∈ setEnabled entries id enabled) :
    ∃ p ∈ entries, q.providerType = p.providerType ∧ q.providerId = p.providerId := by
  obtain ⟨p, hp, rfl⟩ := mem_map.mp h
  refine ⟨p, hp, ?_⟩
  split <;> exact ⟨rfl, rfl⟩

def StoredProviders.setEnabled (s : StoredProviders) (id : Id) (enabled : Bool) : StoredProviders where
  entries := Gmshop.setEnabled s.entries id enabled
  listed := by
    refine ⟨?_, ?_, ?_, fun q hq hsocial => ?_⟩
    · rw [Gmshop.setEnabled, List.length_map]
      exact s.listed.length
    · rw [setEnabled_map _ _ _ _ fun _ => rfl]
      exact s.listed.ids
    · rw [setEnabled_map _ _ _ _ fun _ => rfl]
      exact s.listed.providerIds
    · obtain ⟨p, hp, htype, hid⟩ := mem_setEnabled hq
      rw [hid]
      exact s.listed.social p hp (htype ▸ hsocial)
  email q hq hemail := by
    obtain ⟨p, hp, htype, hid⟩ := mem_setEnabled hq
    rw [hid]
    exact s.email p hp (htype ▸ hemail)

/-- `setAuthProviderEnabledFn`; `checks` is what the checks before switching on come to. -/
def setAuthProviderEnabledFn (db : AuthDb) (id : Id) (enabled : Bool) (checks : Except AuthError Unit) :
    Except AuthError AuthDb :=
  match db.providers.entries.find? fun p => p.id == id with
  | none => .error authProviderNotFound
  | some provider =>
    if provider.enabled = enabled then .ok db
    else do
      if enabled then checks
      else assertAuthProviderCanBeDisabled db provider.providerId db.providers.entries
      .ok { db with providers := db.providers.setEnabled id enabled }

def StoredAuthProvider.before (a b : StoredAuthProvider) : Prop :=
  a.sortOrder < b.sortOrder ∨ a.sortOrder = b.sortOrder ∧ a.id ≤ b.id

instance (a b : StoredAuthProvider) : Decidable (a.before b) := inferInstanceAs (Decidable (_ ∨ _))

def AuthProviderInput.provider (data : AuthProviderInput) (id : Id) : StoredAuthProvider :=
  ⟨id, data.providerId, data.providerType, data.passwordLoginEnabled, data.emailOtpEnabled, data.enabled, data.sortOrder⟩

def savedEntries (entries : List StoredAuthProvider) (provider : StoredAuthProvider) : List StoredAuthProvider :=
  ((entries.filter fun p => p.id != provider.id) ++ [provider]).insertionSort StoredAuthProvider.before

theorem mem_savedEntries {provider : StoredAuthProvider} :
    q ∈ savedEntries entries provider ↔ q ∈ entries ∧ q.id ≠ provider.id ∨ q = provider := by
  rw [savedEntries, mem_insertionSort, mem_append, mem_filter, mem_singleton, bne_iff_ne]

/-- `storedAuthProvidersSchema.parse` of the list with the saved provider. -/
def StoredProviders.save (s : StoredProviders) (provider : StoredAuthProvider)
    (hemail : provider.providerType = .email → provider.providerId = "credential") : Except AuthError StoredProviders :=
  if h : ProviderList (savedEntries s.entries provider) then
    .ok ⟨savedEntries s.entries provider, h, fun q hq hq' => by
      rcases (mem_savedEntries).mp hq with ⟨hq, -⟩ | rfl
      · exact s.email q hq hq'
      · exact hemail hq'⟩
  else .error .schema

def checkBefore (db : AuthDb) (data : AuthProviderInput) (before : StoredAuthProvider) : Except AuthError Unit := do
  if before.providerId ≠ data.providerId then assertProviderIdCanChange db before.providerId
  if before.enabled && !data.enabled then assertAuthProviderCanBeDisabled db before.providerId db.providers.entries

/-- `saveAuthProviderFn`; `newId` is the id of a new provider, `checks` what the secrets, the tokens and the email
delivery come to. -/
def saveAuthProviderFn (db : AuthDb) (data : AuthProviderInput) (newId : Id) (checks : Except AuthError Unit) :
    Except AuthError AuthDb :=
  let before := data.id.bind fun id => db.providers.entries.find? fun p => p.id == id
  if data.id.isSome ∧ before.isNone then .error authProviderNotFound
  else if db.providers.entries.any fun p => p.providerId == data.providerId && data.id != some p.id then
    .error authProviderConflict
  else do
    before.forM (checkBefore db data)
    checks
    let providers ← db.providers.save (data.provider (data.id.getD newId)) data.email
    .ok { db with providers := providers }

def StoredProviders.delete (s : StoredProviders) (id : Id) : StoredProviders where
  entries := s.entries.filter fun p => p.id != id
  listed := by
    have hsub := List.filter_sublist (p := fun p : StoredAuthProvider => p.id != id) (l := s.entries)
    exact ⟨hsub.length_le.trans s.listed.length, s.listed.ids.sublist (hsub.map _),
      s.listed.providerIds.sublist (hsub.map _), fun p hp => s.listed.social p (hsub.subset hp)⟩
  email p hp := s.email p (List.filter_sublist.subset hp)

def deleteAuthProviderFn (db : AuthDb) (id : Id) : Except AuthError AuthDb :=
  match db.providers.entries.find? fun p => p.id == id with
  | none => .error authProviderNotFound
  | some provider =>
    if provider.providerId = "credential" then .error authProviderProtected
    else if db.accounts.rows.any fun a => a.providerId == provider.providerId then .error authProviderInUse
    else .ok { db with providers := db.providers.delete id }

def AuthDb.accountsT : TableRef AuthDb AuthAccount :=
  ⟨AuthDb.accounts, fun s t => { s with accounts := t }, fun _ _ => rfl⟩

/-- `/unlink-account`: behind the check one account that the input names is removed, `removed`. -/
def unlinkAccount (db : AuthDb) (input : UnlinkInput) (removed : Id) : Except AuthError AuthDb := do
  assertAccountCanBeUnlinked db input
  match Stmt.delete AuthDb.accountsT (fun _ a => input.names a && a.id == removed) 0 db with
  | .ok (_, db) => .ok db
  | .error _ => .error .schema

/-- An operation on the login methods; the id of a new provider is a fresh one. -/
inductive AuthOp where
  | setEnabled (id : Id) (enabled : Bool) (checks : Except AuthError Unit)
  | save (data : AuthProviderInput) (newId : Id) (checks : Except AuthError Unit)
  | delete (id : Id)
  | unlink (input : UnlinkInput) (removed : Id)

def AuthOp.Fresh (db : AuthDb) : AuthOp → Prop
  | .save data newId _ => data.id = none → ∀ p ∈ db.providers.entries, p.id ≠ newId
  | _ => True

def AuthOp.run (db : AuthDb) : AuthOp → Except AuthError AuthDb
  | .setEnabled id enabled checks => setAuthProviderEnabledFn db id enabled checks
  | .save data newId checks => saveAuthProviderFn db data newId checks
  | .delete id => deleteAuthProviderFn db id
  | .unlink input removed => unlinkAccount db input removed

end Gmshop
