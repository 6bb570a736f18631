import GmshopEdge.Auth.ProviderPolicy

/-!
# Nobody is locked out

A user signs in with an account of an enabled provider (for the email provider, while passwords are on) or with a code
to an address that is not internal. The checks count two methods that do not work: the codes of the email provider that
is being disabled, and a password account while passwords are off. A save that leaves its provider enabled is not
checked at all. `AuthOp.Careful` leaves these cases out.
-/

namespace Gmshop

open List Sql Utf16 Table Except

/-! ## Login methods -/

def AuthDb.Linked (db : AuthDb) (u : AuthUser) (providerId : String) : Prop :=
  ∃ a ∈ db.accounts.rows, a.userId = u.id ∧ a.providerId = providerId

inductive LoginMethod (db : AuthDb) (u : AuthUser) : Prop
  | account (p : StoredAuthProvider) (hp : p ∈ db.providers.entries) (henabled : p.enabled = true)
      (hpassword : p.providerType = .email → p.passwordLoginEnabled = true) (hlinked : db.Linked u p.providerId)
  | code (p : StoredAuthProvider) (hp : p ∈ db.providers.entries) (henabled : p.enabled = true)
      (hemail : p.providerType = .email) (hotp : p.emailOtpEnabled = true)
      (haddress : isInternalIdentityEmail u.email = false)

def EverybodyCanLogin (db : AuthDb) : Prop := ∀ u ∈ db.users.rows, LoginMethod db u

/-- The user has an account of another enabled provider than this one, and not only the password account. -/
def SocialAccount (db : AuthDb) (u : AuthUser) (providerId : String) : Prop :=
  ∃ p ∈ db.providers.entries, p.enabled = true ∧ p.providerType = .social ∧ p.providerId ≠ providerId ∧
    db.Linked u p.providerId

/-- The provider can be disabled behind the check: the codes that go with the email provider are not what a user has
left, nor is a password account that cannot be used. -/
structure DisableSafe (db : AuthDb) (p : StoredAuthProvider) : Prop where
  codes : p.providerType = .email → p.emailOtpEnabled = true → ∀ u ∈ db.users.rows,
    isInternalIdentityEmail u.email = false → SocialAccount db u p.providerId
  passwords : p.providerType = .social → ∀ e ∈ db.providers.entries, e.enabled = true → e.providerType = .email →
    e.passwordLoginEnabled = false → ∀ u ∈ db.users.rows, db.Linked u p.providerId →
      (e.emailOtpEnabled = true ∧ isInternalIdentityEmail u.email = false) ∨ SocialAccount db u p.providerId

/-- Behind the save the user has an account of another provider than the email provider. -/
def OtherAccount (db : AuthDb) (u : AuthUser) (before : StoredAuthProvider) (data : AuthProviderInput) : Prop :=
  SocialAccount db u before.providerId ∨ (data.providerType = .social ∧ db.Linked u data.providerId)

/-- The email provider stays enabled and loses no login method that a user has nothing beside. -/
structure SaveSafe (db : AuthDb) (before : StoredAuthProvider) (data : AuthProviderInput) : Prop where
  passwords : before.passwordLoginEnabled = true → ¬ (data.providerType = .email ∧ data.passwordLoginEnabled = true) →
    ∀ u ∈ db.users.rows, db.Linked u before.providerId →
      (data.providerType = .email ∧ data.emailOtpEnabled = true ∧ isInternalIdentityEmail u.email = false) ∨
        OtherAccount db u before data
  codes : before.emailOtpEnabled = true → ¬ (data.providerType = .email ∧ data.emailOtpEnabled = true) →
    ∀ u ∈ db.users.rows, isInternalIdentityEmail u.email = false →
      (data.providerType = .email ∧ data.passwordLoginEnabled = true ∧ db.Linked u before.providerId) ∨
        OtherAccount db u before data

/-- What is unlinked while passwords are off is not all that a user has beside the password account. -/
def UnlinkSafe (db : AuthDb) (input : UnlinkInput) (removed : Id) : Prop :=
  ∀ e ∈ db.providers.entries, e.enabled = true → e.providerType = .email → e.passwordLoginEnabled = false →
    ∀ r ∈ db.accounts.rows, input.names r = true → r.id = removed → ∀ u ∈ db.users.rows, u.id = input.userId →
      (e.emailOtpEnabled = true ∧ isInternalIdentityEmail u.email = false) ∨
        ∃ p ∈ db.providers.entries, p.enabled = true ∧ p.providerType = .social ∧
          ∃ a ∈ db.accounts.rows, a.id ≠ removed ∧ a.userId = u.id ∧ a.providerId = p.providerId

def AuthOp.Careful (db : AuthDb) : AuthOp → Prop
  | .setEnabled id enabled _ => enabled = false → ∀ p ∈ db.providers.entries, p.id = id → p.enabled = true →
      DisableSafe db p
  | .save data _ _ => ∀ before ∈ db.providers.entries, data.id = some before.id → before.enabled = true →
      (data.enabled = false → DisableSafe db before) ∧
        (data.enabled = true → before.providerType = .email → SaveSafe db before data)
  | .delete _ => True
  | .unlink input removed => UnlinkSafe db input removed

/-! ## Stored providers -/

variable {id newId : Id} {row : AlternativeRow} {db db' : AuthDb} {providerId : String} {u : AuthUser}
  {rows : List AlternativeRow} {p q : StoredAuthProvider} {enabled : Bool} {s : StoredProviders}
  {checks : Except AuthError Unit} {data : AuthProviderInput} {a : AuthAccount}

section Providers

variable {s : StoredProviders} {p q : StoredAuthProvider}

section

variable (hp : p ∈ s.entries) (hq : q ∈ s.entries)
include hp hq

theorem StoredProviders.id_inj (h : p.id = q.id) : p = q :=
  inj_on_of_nodup_map s.listed.ids hp hq h

theorem StoredProviders.providerId_inj (h : p.providerId = q.providerId) : p = q :=
  inj_on_of_nodup_map s.listed.providerIds hp hq h

theorem StoredProviders.email_unique (hemail : p.providerType = .email) (hemail' : q.providerType = .email) : p = q :=
  s.providerId_inj hp hq ((s.email p hp hemail).trans (s.email q hq hemail').symm)

theorem StoredProviders.social_of_ne (hemail : p.providerType = .email) (hne : q.providerId ≠ p.providerId) :
    q.providerType = .social := by
  cases hq' : q.providerType with
  | email => exact absurd (congrArg _ (s.email_unique hq hp hq' hemail)) hne
  | social => rfl

end

theorem StoredProviders.find (h : s.entries.find? (fun q => q.id == id) = some p) : p ∈ s.entries ∧ p.id = id :=
  ⟨mem_of_find?_eq_some h, beq_iff_eq.mp (find?_some h :)⟩

theorem credential_not_social : "credential" ∉ builtInSocialProviderIds := by decide

theorem StoredProviders.social_ne (hp : p ∈ s.entries) (hsocial : p.providerType = .social) :
    p.providerId ≠ "credential" := by
  intro h
  exact credential_not_social (h ▸ s.listed.social p hp hsocial)

theorem enabledEmail_some (h : enabledEmail s.entries = some p) :
    p ∈ s.entries ∧ p.enabled = true ∧ p.providerType = .email := by
  have hp := find?_some h
  rw [Bool.and_eq_true, beq_iff_eq] at hp
  exact ⟨mem_of_find?_eq_some h, hp⟩

theorem codeReaches_some {address : Utf16} (h : codeReaches (enabledEmail s.entries) address = true) :
    ∃ e ∈ s.entries, e.enabled = true ∧ e.providerType = .email ∧ e.emailOtpEnabled = true ∧
      isInternalIdentityEmail address = false := by
  rw [codeReaches, Bool.and_eq_true, Bool.not_eq_true'] at h
  obtain ⟨hotp, haddress⟩ := h
  cases he : enabledEmail s.entries with
  | none =>
    rw [he] at hotp
    cases hotp
  | some e =>
    rw [he] at hotp
    obtain ⟨hmem, henabled, hemail⟩ := enabledEmail_some he
    exact ⟨e, hmem, henabled, hemail, hotp, haddress⟩

end Providers

/-! ## The check before disabling -/

theorem leftJoin_ne_nil (user : AuthUser) (accounts : List AuthAccount) : leftJoin user accounts ≠ [] := by
  cases accounts <;> simp [leftJoin]

theorem leftJoin_mem {user : AuthUser} {accounts : List AuthAccount} (h : row ∈ leftJoin user accounts) :
    row.userId = user.id ∧ row.email = user.email ∧ ∀ id ∈ row.providerId, ∃ a ∈ accounts, a.providerId = id := by
  cases accounts with
  | nil =>
    obtain rfl := mem_singleton.mp h
    exact ⟨rfl, rfl, nofun⟩
  | cons a as =>
    obtain ⟨account, haccount, rfl⟩ := mem_map.mp h
    refine ⟨rfl, rfl, fun id hid => ⟨account, haccount, Option.some.inj hid⟩⟩

theorem alternativeRows_mem (h : row ∈ db.alternativeRows providerId) : ∃ user ∈ db.users.rows, row.userId = user.id ∧
      row.email = user.email ∧ ∀ id ∈ row.providerId, db.Linked user id := by
  unfold AuthDb.alternativeRows at h
  split at h
  · obtain ⟨user, huser, hrow⟩ := mem_flatMap.mp h
    obtain ⟨hid, hemail, haccounts⟩ := leftJoin_mem hrow
    refine ⟨user, huser, hid, hemail, fun id hmem => ?_⟩
    obtain ⟨a, ha, hprovider⟩ := haccounts id hmem
    rw [mem_filter, beq_iff_eq] at ha
    exact ⟨a, ha.1, ha.2, hprovider⟩
  · obtain ⟨owner, -, hrow⟩ := mem_flatMap.mp h
    split at hrow
    · cases hrow
    · rename_i user hget
      obtain ⟨hid, hemail, haccounts⟩ := leftJoin_mem hrow
      refine ⟨user, get?_mem hget, hid, hemail, fun id hmem => ?_⟩
      obtain ⟨a, ha, hprovider⟩ := haccounts id hmem
      rw [mem_filter, Bool.and_eq_true, beq_iff_eq] at ha
      have hkey : user.id = owner.userId := get?_key hget
      exact ⟨a, ha.1, ha.2.1.trans hkey.symm, hprovider⟩

theorem alternativeRows_exists (hu : u ∈ db.users.rows) (h : providerId = "credential" ∨ db.Linked u providerId) :
    ∃ row ∈ db.alternativeRows providerId, row.userId = u.id := by
  unfold AuthDb.alternativeRows
  split
  · obtain ⟨row, hrow⟩ := exists_mem_of_ne_nil _ (leftJoin_ne_nil u (db.accounts.rows.filter fun a => a.userId == u.id))
    exact ⟨row, mem_flatMap.mpr ⟨u, hu, hrow⟩, (leftJoin_mem hrow).1⟩
  · rename_i hother
    obtain ⟨owner, howner, huser, hprovider⟩ := h.resolve_left hother
    have hget : db.users.get? owner.userId = some u := get?_eq_some_iff.mpr ⟨hu, huser.symm⟩
    obtain ⟨row, hrow⟩ := exists_mem_of_ne_nil _
      (leftJoin_ne_nil u (db.accounts.rows.filter fun a => a.userId == owner.userId && a.id != owner.id))
    refine ⟨row, mem_flatMap.mpr ⟨owner, mem_filter.mpr ⟨howner, beq_iff_eq.mpr hprovider⟩, ?_⟩,
      (leftJoin_mem hrow).1⟩
    rw [hget]
    exact hrow

theorem groupAlternatives_append (rows : List AlternativeRow) (last : AlternativeRow) :
    groupAlternatives (rows ++ [last]) = (groupAlternatives rows).set last.userId
      ((((groupAlternatives rows).get last.userId).getD (last.email, [])).1,
        (((groupAlternatives rows).get last.userId).getD (last.email, [])).2 ++ last.providerId.toList) := by
  rw [groupAlternatives, foldl_append]
  rfl

theorem groupAlternatives_exists (h : row ∈ rows) : ∃ user, (groupAlternatives rows).get row.userId = some user := by
  induction rows using reverseRecOn with
  | nil => cases h
  | append_singleton rows last ih =>
    rw [groupAlternatives_append]
    by_cases huser : row.userId = last.userId
    · rw [huser]
      exact ⟨_, Record.get_set_self _ _ _⟩
    · rw [Record.get_set_ne _ huser]
      rcases mem_append.mp h with hin | hin
      · exact ih hin
      · exact absurd (congrArg _ (mem_singleton.mp hin)) huser

theorem groupAlternatives_get {userId : Id} {email : Utf16} {ids : List String}
    (h : (groupAlternatives rows).get userId = some (email, ids)) :
    (∃ r ∈ rows, r.userId = userId ∧ r.email = email) ∧
      ∀ id ∈ ids, ∃ r ∈ rows, r.userId = userId ∧ r.providerId = some id := by
  induction rows using reverseRecOn generalizing email ids with
  | nil => cases h
  | append_singleton rows last ih =>
    have hlast : last ∈ rows ++ [last] := mem_append_right _ (mem_singleton.mpr rfl)
    have hwiden : ∀ {email ids}, (groupAlternatives rows).get userId = some (email, ids) →
        (∃ r ∈ rows ++ [last], r.userId = userId ∧ r.email = email) ∧
          ∀ id ∈ ids, ∃ r ∈ rows ++ [last], r.userId = userId ∧ r.providerId = some id := by
      intro email ids hget
      obtain ⟨⟨r, hr, hemail⟩, hids⟩ := ih hget
      refine ⟨⟨r, mem_append_left _ hr, hemail⟩, fun id hid => ?_⟩
      obtain ⟨r', hr', hid'⟩ := hids id hid
      exact ⟨r', mem_append_left _ hr', hid'⟩
    rw [groupAlternatives_append] at h
    by_cases huser : userId = last.userId
    · subst huser
      rw [Record.get_set_self, Option.some.injEq, Prod.mk.injEq] at h
      obtain ⟨rfl, rfl⟩ := h
      have hnew : ∀ id ∈ last.providerId.toList, ∃ r ∈ rows ++ [last], r.userId = last.userId ∧ r.providerId = some id :=
        fun id hid => ⟨last, hlast, rfl, Option.mem_toList.mp hid⟩
      cases hget : (groupAlternatives rows).get last.userId with
      | none => exact ⟨⟨last, hlast, rfl, rfl⟩, fun id hid => hnew id (by simpa [hget] using hid)⟩
      | some user =>
        obtain ⟨hemail, hids⟩ := hwiden hget
        refine ⟨hemail, fun id hid => ?_⟩
        rcases mem_append.mp hid with hid | hid
        · exact hids id hid
        · exact hnew id hid
    · rw [Record.get_set_ne _ huser] at h
      exact hwiden h

theorem canBeDisabled_alternative
    (h : assertAuthProviderCanBeDisabled db providerId db.providers.entries = .ok ()) (hu : u ∈ db.users.rows)
    (hconcerned : providerId = "credential" ∨ db.Linked u providerId) :
    (∃ q ∈ db.providers.entries, q.enabled = true ∧ q.providerId ≠ providerId ∧ db.Linked u q.providerId) ∨
      codeReaches (enabledEmail db.providers.entries) u.email = true := by
  obtain ⟨row, hrow, hrowUser⟩ := alternativeRows_exists hu hconcerned
  obtain ⟨⟨email, ids⟩, hget⟩ := groupAlternatives_exists hrow
  rw [hrowUser] at hget
  obtain ⟨⟨r, hr, hrUser, rfl⟩, hids⟩ := groupAlternatives_get hget
  -- a row of the user is about nobody else
  have hsame : ∀ r ∈ db.alternativeRows providerId, r.userId = u.id →
      r.email = u.email ∧ ∀ id ∈ r.providerId, db.Linked u id := by
    intro r hr hid
    obtain ⟨user, huser, hrid, hemail, hlinked⟩ := alternativeRows_mem hr
    have hkey : db.users.get? u.id = some user := get?_eq_some_iff.mpr ⟨huser, hrid.symm.trans hid⟩
    have hfound : db.users.get? u.id = some u := mem_get? hu
    obtain rfl := Option.some.inj (hfound.symm.trans hkey)
    exact ⟨hemail, hlinked⟩
  unfold assertAuthProviderCanBeDisabled at h
  simp only at h
  split at h
  · cases h
  · rename_i hnone
    simp only [any_eq_true (p := fun user : Utf16 × List String => _), not_exists, not_and, Bool.and_eq_true,
      Bool.not_eq_true', Bool.not_eq_false] at hnone
    have hmem : (r.email, ids) ∈ (groupAlternatives (db.alternativeRows providerId)).values :=
      mem_map.mpr ⟨(u.id, r.email, ids), Record.get_eq_some_iff.mp hget, rfl⟩
    by_cases hid : (ids.any fun id => ((db.providers.entries.filter fun p => p.enabled && p.providerId != providerId).map
        (·.providerId)).contains id) = true
    · obtain ⟨id, hin, henabled⟩ := any_eq_true.mp hid
      rw [contains_iff_mem, mem_map] at henabled
      obtain ⟨q, hq, rfl⟩ := henabled
      rw [mem_filter, Bool.and_eq_true, bne_iff_ne] at hq
      obtain ⟨r', hr', hr'User, hprovider⟩ := hids _ hin
      exact .inl ⟨q, hq.1, hq.2.1, hq.2.2, (hsame r' hr' hr'User).2 _ hprovider⟩
    · have hcode := hnone _ hmem (eq_false_of_ne_true hid)
      rw [(hsame r hr hrUser).1] at hcode
      exact .inr hcode

/-! ## Disabling -/

/-- The step disables the provider: the others stay as they are, and none else is enabled. -/
structure Disabled (db db' : AuthDb) (p : StoredAuthProvider) : Prop where
  users : db'.users = db.users
  accounts : db'.accounts = db.accounts
  keeps : ∀ q ∈ db.providers.entries, q.providerId ≠ p.providerId → q ∈ db'.providers.entries
  only : ∀ q ∈ db'.providers.entries, q.enabled = true → q ∈ db.providers.entries ∧ q.providerId ≠ p.providerId

theorem Linked.congr (h : db'.accounts = db.accounts) : db'.Linked u providerId ↔ db.Linked u providerId := by
  rw [AuthDb.Linked, AuthDb.Linked, h]

section

variable (hstep : Disabled db db' p) (hp : p ∈ db.providers.entries)
include hstep hp

theorem Disabled.everybody
    (hcheck : assertAuthProviderCanBeDisabled db p.providerId db.providers.entries = .ok ())
    (hall : EverybodyCanLogin db) (hsafe : DisableSafe db p) : EverybodyCanLogin db' := by
  have hlinked : ∀ {u id}, db.Linked u id → db'.Linked u id := (Linked.congr hstep.accounts).mpr
  have hsocial : ∀ {u}, SocialAccount db u p.providerId → LoginMethod db' u := by
    rintro u ⟨q, hq, henabled, hqSocial, hne, hlink⟩
    refine .account q (hstep.keeps q hq hne) henabled (fun hemail => ?_) (hlinked hlink)
    rw [hqSocial] at hemail
    cases hemail
  have hcode : ∀ {u : AuthUser} {e}, e ∈ db.providers.entries → e.enabled = true → e.providerType = .email →
      e.emailOtpEnabled = true → isInternalIdentityEmail u.email = false → e.providerId ≠ p.providerId →
        LoginMethod db' u := by
    intro u e he henabled hemail hotp haddress hne
    exact .code e (hstep.keeps e he hne) henabled hemail hotp haddress
  intro u hu
  rw [hstep.users] at hu
  -- the codes of the provider itself are covered by the condition
  have hcodes : ∀ e ∈ db.providers.entries, e.enabled = true → e.providerType = .email → e.emailOtpEnabled = true →
      isInternalIdentityEmail u.email = false → LoginMethod db' u := by
    intro e he henabled hemail hotp haddress
    by_cases hne : e.providerId = p.providerId
    · obtain rfl := db.providers.providerId_inj he hp hne
      exact hsocial (hsafe.codes hemail hotp u hu haddress)
    · exact hcode he henabled hemail hotp haddress hne
  cases hall u hu with
  | code e he henabled hemail hotp haddress => exact hcodes e he henabled hemail hotp haddress
  | account q hq henabled hpassword hlink =>
    by_cases hne : q.providerId = p.providerId
    · rw [hne] at hlink
      rcases canBeDisabled_alternative hcheck hu (.inr hlink) with ⟨r, hr, hrEnabled, hrNe, hrLink⟩ | hreaches
      · cases hrType : r.providerType with
        | social => exact hsocial ⟨r, hr, hrEnabled, hrType, hrNe, hrLink⟩
        | email =>
          have hpSocial : p.providerType = .social := db.providers.social_of_ne hr hp hrType (Ne.symm hrNe)
          by_cases hrPassword : r.passwordLoginEnabled = true
          · exact .account r (hstep.keeps r hr hrNe) hrEnabled (fun _ => hrPassword) (hlinked hrLink)
          · rcases hsafe.passwords hpSocial r hr hrEnabled hrType (eq_false_of_ne_true hrPassword) u hu hlink with
              ⟨hotp, haddress⟩ | hother
            · exact hcode hr hrEnabled hrType hotp haddress hrNe
            · exact hsocial hother
      · obtain ⟨e, he, heEnabled, hemail, hotp, haddress⟩ := codeReaches_some hreaches
        exact hcodes e he heEnabled hemail hotp haddress
    · exact .account q (hstep.keeps q hq hne) henabled hpassword (hlinked hlink)

theorem Disabled.safe (hall : EverybodyCanLogin db') : DisableSafe db p := by
  constructor
  · intro hemail hotp u hu haddress
    cases hall u (hstep.users ▸ hu) with
    | account q hq henabled hpassword hlink =>
      obtain ⟨hq, hne⟩ := hstep.only q hq henabled
      exact ⟨q, hq, henabled, db.providers.social_of_ne hp hq hemail hne, hne, (Linked.congr hstep.accounts).mp hlink⟩
    | code e he henabled hemail' hotp' haddress' =>
      obtain ⟨he, hne⟩ := hstep.only e he henabled
      exact absurd (congrArg _ (db.providers.email_unique he hp hemail' hemail)) hne
  · intro hsocial e he heEnabled hemail hpassword u hu hlink
    cases hall u (hstep.users ▸ hu) with
    | account q hq henabled hqPassword hqLink =>
      obtain ⟨hq, hne⟩ := hstep.only q hq henabled
      have hqSocial : q.providerType = .social := by
        cases hqType : q.providerType with
        | social => rfl
        | email =>
          obtain rfl := db.providers.email_unique hq he hqType hemail
          rw [hqPassword hqType] at hpassword
          cases hpassword
      exact .inr ⟨q, hq, henabled, hqSocial, hne, (Linked.congr hstep.accounts).mp hqLink⟩
    | code q hq henabled hqEmail hotp haddress =>
      obtain ⟨hq, -⟩ := hstep.only q hq henabled
      obtain rfl := db.providers.email_unique hq he hqEmail hemail
      exact .inl ⟨hotp, haddress⟩

theorem Disabled.iff (hcheck : assertAuthProviderCanBeDisabled db p.providerId db.providers.entries = .ok ())
    (hall : EverybodyCanLogin db) : EverybodyCanLogin db' ↔ DisableSafe db p :=
  ⟨hstep.safe hp, hstep.everybody hp hcheck hall⟩

end

theorem everybody_of_keeps (hall : EverybodyCanLogin db) (husers : db'.users = db.users)
    (haccounts : db'.accounts = db.accounts) (hkeeps : ∀ q ∈ db.providers.entries, q.enabled = true →
      (q.providerType = .social → ∀ u, db.Linked u q.providerId → q ∈ db'.providers.entries) ∧
        (q.providerType = .email → q ∈ db'.providers.entries)) : EverybodyCanLogin db' := by
  intro u hu
  cases hall u (husers ▸ hu) with
  | account q hq henabled hpassword hlink =>
    refine .account q ?_ henabled hpassword ((Linked.congr haccounts).mpr hlink)
    cases hqType : q.providerType with
    | social => exact (hkeeps q hq henabled).1 hqType u hlink
    | email => exact (hkeeps q hq henabled).2 hqType
  | code q hq henabled hemail hotp haddress =>
    exact .code q ((hkeeps q hq henabled).2 hemail) henabled hemail hotp haddress

/-! ## Switching -/

theorem mem_setEnabled_iff (hp : p ∈ s.entries) :
    q ∈ (s.setEnabled p.id enabled).entries ↔ (q ∈ s.entries ∧ q.id ≠ p.id) ∨ q = { p with enabled := enabled } := by
  show q ∈ s.entries.map _ ↔ _
  rw [mem_map]
  constructor
  · rintro ⟨r, hr, rfl⟩
    by_cases hid : r.id = p.id
    · obtain rfl := s.id_inj hr hp hid
      exact .inr (if_pos rfl)
    · rw [if_neg hid]
      exact .inl ⟨hr, hid⟩
  · rintro (⟨hq, hid⟩ | rfl)
    · exact ⟨q, hq, if_neg hid⟩
    · exact ⟨p, hp, if_pos rfl⟩

theorem setAuthProviderEnabledFn_iff (h : setAuthProviderEnabledFn db id enabled checks = .ok db')
    (hall : EverybodyCanLogin db) :
    EverybodyCanLogin db' ↔ AuthOp.Careful db (.setEnabled id enabled checks) := by
  unfold setAuthProviderEnabledFn at h
  split at h
  · cases h
  · rename_i p hfind
    obtain ⟨hp, rfl⟩ := db.providers.find hfind
    have honly : ∀ q ∈ db.providers.entries, q.id = p.id → q = p := fun q hq hid => db.providers.id_inj hq hp hid
    split at h
    · rename_i hsame
      obtain rfl := Except.ok.inj h
      refine ⟨fun _ hoff q hq hid hqEnabled => ?_, fun _ => hall⟩
      rw [honly q hq hid, hsame, hoff] at hqEnabled
      cases hqEnabled
    · rename_i hdiffers
      cases enabled with
      | true =>
        cases hchecks : checks with
        | error e => simp [hchecks, bind, Except.bind] at h
        | ok _ =>
          simp only [hchecks, if_true, bind, Except.bind, Except.ok.injEq] at h
          subst h
          refine ⟨fun _ hoff => Bool.noConfusion hoff, fun _ => everybody_of_keeps hall rfl rfl fun q hq henabled => ?_⟩
          have hmem : q ∈ (db.providers.setEnabled p.id true).entries := by
            refine (mem_setEnabled_iff hp).mpr (.inl ⟨hq, fun hid => ?_⟩)
            rw [honly q hq hid] at henabled
            exact hdiffers henabled
          exact ⟨fun _ _ _ => hmem, fun _ => hmem⟩
      | false =>
        cases hcheck : assertAuthProviderCanBeDisabled db p.providerId db.providers.entries with
        | error e => simp [hcheck, bind, Except.bind] at h
        | ok _ =>
          simp only [hcheck, bind, Except.bind, Bool.false_eq_true, if_false, Except.ok.injEq] at h
          subst h
          have hpEnabled : p.enabled = true := by simpa using hdiffers
          have hstep : Disabled db { db with providers := db.providers.setEnabled p.id false } p := by
            refine ⟨rfl, rfl, fun q hq hne => ?_, fun q hq henabled => ?_⟩
            · exact (mem_setEnabled_iff hp).mpr (.inl ⟨hq, fun hid => hne (congrArg _ (honly q hq hid))⟩)
            · rcases (mem_setEnabled_iff hp).mp hq with ⟨hq, hid⟩ | rfl
              · exact ⟨hq, fun heq => hid (congrArg _ (db.providers.providerId_inj hq hp heq))⟩
              · cases henabled
          refine (hstep.iff hp hcheck hall).trans ⟨fun hsafe _ q hq hid _ => ?_, fun hcareful => ?_⟩
          · rw [honly q hq hid]
            exact hsafe
          · exact hcareful rfl p hp rfl hpEnabled

/-! ## Saving -/

theorem bind_ok {α β : Type} {x : Except AuthError α} {f : α → Except AuthError β} {b : β}
    (h : (x >>= f) = .ok b) : ∃ a, x = .ok a ∧ f a = .ok b := by
  cases x with
  | error e => cases h
  | ok a => exact ⟨a, rfl, h⟩

theorem checkBefore_ok {before : StoredAuthProvider} (h : checkBefore db data before = .ok ()) :
    (before.providerId ≠ data.providerId → ∀ u, ¬ db.Linked u before.providerId) ∧
      (before.enabled = true → data.enabled = false →
        assertAuthProviderCanBeDisabled db before.providerId db.providers.entries = .ok ()) := by
  have hchange : assertProviderIdCanChange db before.providerId = .ok () → ∀ u, ¬ db.Linked u before.providerId := by
    rintro hok u ⟨a, ha, -, hprovider⟩
    have hused : (db.accounts.rows.any fun a => a.providerId == before.providerId) = true :=
      any_eq_true.mpr ⟨a, ha, beq_iff_eq.mpr hprovider⟩
    rw [assertProviderIdCanChange, if_pos hused] at hok
    cases hok
  unfold checkBefore at h
  by_cases hid : before.providerId = data.providerId
  · refine ⟨fun hne => absurd hid hne, fun hon hoff => ?_⟩
    simpa [hid, hon, hoff] using h
  · rw [if_pos hid] at h
    obtain ⟨_, hok, hrest⟩ := bind_ok h
    refine ⟨fun _ => hchange hok, fun hon hoff => ?_⟩
    simpa [hon, hoff] using hrest

structure Saved (db db' : AuthDb) (data : AuthProviderInput) (id : Id) : Prop where
  users : db'.users = db.users
  accounts : db'.accounts = db.accounts
  free : ∀ q ∈ db.providers.entries, q.providerId = data.providerId → data.id = some q.id
  entries : ∀ q, q ∈ db'.providers.entries ↔ (q ∈ db.providers.entries ∧ q.id ≠ id) ∨ q = data.provider id
  before : ∀ before ∈ db.providers.entries, data.id = some before.id → checkBefore db data before = .ok ()

theorem saveAuthProviderFn_ok (h : saveAuthProviderFn db data newId checks = .ok db') :
    Saved db db' data (data.id.getD newId) := by
  unfold saveAuthProviderFn at h
  simp only at h
  split at h
  · cases h
  split at h
  · cases h
  rename_i hfree
  obtain ⟨_, hbefore, h⟩ := bind_ok h
  obtain ⟨_, -, h⟩ := bind_ok h
  obtain ⟨providers, hsave, h⟩ := bind_ok h
  obtain rfl := ok.inj h
  refine ⟨rfl, rfl, fun q hq hid => ?_, fun q => ?_, fun before hin hid => ?_⟩
  · by_contra hne
    refine hfree (any_eq_true.mpr ⟨q, hq, ?_⟩)
    rw [Bool.and_eq_true, beq_iff_eq, bne_iff_ne]
    exact ⟨hid, hne⟩
  · unfold StoredProviders.save at hsave
    split at hsave
    · obtain rfl := ok.inj hsave
      exact mem_savedEntries
    · cases hsave
  · have hfind : (data.id.bind fun id => db.providers.entries.find? fun p => p.id == id) = some before := by
      rw [hid, Option.bind_some]
      cases hfound : db.providers.entries.find? fun p => p.id == before.id with
      | none => exact absurd (beq_self_eq_true before.id) (by simpa using find?_eq_none.mp hfound before hin)
      | some p =>
        obtain ⟨hp, hpid⟩ := db.providers.find hfound
        rw [db.providers.id_inj hp hin hpid]
    rw [hfind] at hbefore
    exact hbefore

section Saving

variable {db db' : AuthDb} {data : AuthProviderInput} {before : StoredAuthProvider}

theorem Saved.keeps (h : Saved db db' data id) (hq : q ∈ db.providers.entries) (hid : q.id ≠ id) :
    q ∈ db'.providers.entries :=
  (h.entries q).mpr (.inl ⟨hq, hid⟩)

section

variable (h : Saved db db' data before.id) (hbefore : before ∈ db.providers.entries)
include h hbefore

theorem Saved.disabled (hoff : data.enabled = false) : Disabled db db' before := by
  refine ⟨h.users, h.accounts, fun q hq hne => h.keeps hq fun hid => ?_, fun q hq henabled => ?_⟩
  · exact hne (congrArg _ (db.providers.id_inj hq hbefore hid))
  · rcases (h.entries q).mp hq with ⟨hq, hid⟩ | rfl
    · exact ⟨hq, fun heq => hid (congrArg _ (db.providers.providerId_inj hq hbefore heq))⟩
    · rw [AuthProviderInput.provider, hoff] at henabled
      cases henabled

theorem Saved.providerId_kept (hid : data.id = some before.id) (hlink : db.Linked u before.providerId) :
    before.providerId = data.providerId := by
  by_contra hne
  exact (checkBefore_ok (h.before before hbefore hid)).1 hne u hlink

theorem Saved.social_everybody (hid : data.id = some before.id) (hon : data.enabled = true)
    (hsocial : before.providerType = .social) (hall : EverybodyCanLogin db) : EverybodyCanLogin db' := by
  intro u hu
  have hother : ∀ q ∈ db.providers.entries, q ≠ before → q ∈ db'.providers.entries := fun q hq hne =>
    h.keeps hq fun heq => hne (db.providers.id_inj hq hbefore heq)
  cases hall u (h.users ▸ hu) with
  | account q hq henabled hpassword hlink =>
    by_cases hq' : q = before
    · subst hq'
      have hsame := h.providerId_kept hbefore hid hlink
      have hdata : data.providerType = .social := by
        cases hdata : data.providerType with
        | social => rfl
        | email => exact absurd (hsame.trans (data.email hdata)) (db.providers.social_ne hbefore hsocial)
      refine .account (data.provider q.id) ((h.entries _).mpr (.inr rfl)) hon (fun hemail => ?_) ?_
      · have hemail : data.providerType = .email := hemail
        rw [hdata] at hemail
        cases hemail
      · rw [hsame] at hlink
        exact (Linked.congr h.accounts).mpr hlink
    · exact .account q (hother q hq hq') henabled hpassword ((Linked.congr h.accounts).mpr hlink)
  | code q hq henabled hemail hotp haddress =>
    refine .code q (hother q hq fun heq => ?_) henabled hemail hotp haddress
    rw [heq, hsocial] at hemail
    cases hemail

theorem Saved.email_iff (hid : data.id = some before.id) (hon : data.enabled = true)
    (hemail : before.providerType = .email) (hall : EverybodyCanLogin db) :
    EverybodyCanLogin db' ↔ SaveSafe db before data := by
  have hsaved : data.provider before.id ∈ db'.providers.entries := (h.entries _).mpr (.inr rfl)
  have hlinks : ∀ {u id}, db'.Linked u id ↔ db.Linked u id := Linked.congr h.accounts
  have hdataId : data.providerType = .email → data.providerId = before.providerId := fun hdata =>
    (data.email hdata).trans (db.providers.email before hbefore hemail).symm
  have hother : ∀ q ∈ db.providers.entries, q.providerId ≠ before.providerId → q ∈ db'.providers.entries :=
    fun q hq hne => h.keeps hq fun heq => hne (congrArg _ (db.providers.id_inj hq hbefore heq))
  constructor
  · intro hall'
    -- what serves a user afterwards is another provider's account, or the saved provider
    have hcases : ∀ u ∈ db.users.rows, OtherAccount db u before data ∨
        (data.providerType = .email ∧ data.passwordLoginEnabled = true ∧ db.Linked u before.providerId) ∨
        (data.providerType = .email ∧ data.emailOtpEnabled = true ∧ isInternalIdentityEmail u.email = false) := by
      intro u hu
      cases hall' u (h.users ▸ hu) with
      | account q hq henabled hpassword hlink =>
        rcases (h.entries q).mp hq with ⟨hq, hqid⟩ | rfl
        · have hne : q.providerId ≠ before.providerId := fun heq =>
            hqid (congrArg _ (db.providers.providerId_inj hq hbefore heq))
          exact .inl (.inl ⟨q, hq, henabled, db.providers.social_of_ne hbefore hq hemail hne, hne, hlinks.mp hlink⟩)
        · cases hdata : data.providerType with
          | email =>
            have hlink : db.Linked u data.providerId := hlinks.mp hlink
            exact .inr (.inl ⟨rfl, hpassword hdata, hdataId hdata ▸ hlink⟩)
          | social => exact .inl (.inr ⟨hdata, hlinks.mp hlink⟩)
      | code q hq henabled hqEmail hotp haddress =>
        rcases (h.entries q).mp hq with ⟨hq, hqid⟩ | rfl
        · exact absurd (congrArg _ (db.providers.email_unique hq hbefore hqEmail hemail)) hqid
        · exact .inr (.inr ⟨hqEmail, hotp, haddress⟩)
    refine ⟨fun _ hlost u hu _ => ?_, fun _ hlost u hu _ => ?_⟩
    · rcases hcases u hu with hother | hpassword | hcode
      · exact .inr hother
      · exact absurd ⟨hpassword.1, hpassword.2.1⟩ hlost
      · exact .inl hcode
    · rcases hcases u hu with hother | hpassword | hcode
      · exact .inr hother
      · exact .inl hpassword
      · exact absurd ⟨hcode.1, hcode.2.1⟩ hlost
  · intro hsafe u hu
    rw [h.users] at hu
    have hserved : OtherAccount db u before data → LoginMethod db' u := by
      rintro (⟨q, hq, henabled, hsocial, hne, hlink⟩ | ⟨hdata, hlink⟩)
      · refine .account q (hother q hq hne) henabled (fun hqEmail => ?_) (hlinks.mpr hlink)
        rw [hsocial] at hqEmail
        cases hqEmail
      · refine .account _ hsaved hon (fun hsavedEmail => ?_) (hlinks.mpr hlink)
        have hsavedEmail : data.providerType = .email := hsavedEmail
        rw [hdata] at hsavedEmail
        cases hsavedEmail
    have hpassword : data.providerType = .email → data.passwordLoginEnabled = true → db.Linked u before.providerId →
        LoginMethod db' u := by
      intro hdata hpw hlink
      rw [← hdataId hdata] at hlink
      exact .account _ hsaved hon (fun _ => hpw) (hlinks.mpr hlink)
    have hcode : data.providerType = .email → data.emailOtpEnabled = true →
        isInternalIdentityEmail u.email = false → LoginMethod db' u :=
      fun hdata hotp haddress => .code _ hsaved hon hdata hotp haddress
    cases hall u hu with
    | account q hq henabled hqPassword hlink =>
      by_cases hq' : q.providerId = before.providerId
      · obtain rfl := db.providers.providerId_inj hq hbefore hq'
        by_cases hkept : data.providerType = .email ∧ data.passwordLoginEnabled = true
        · exact hpassword hkept.1 hkept.2 hlink
        · rcases hsafe.passwords (hqPassword hemail) hkept u hu hlink with ⟨hdata, hotp, haddress⟩ | hleft
          · exact hcode hdata hotp haddress
          · exact hserved hleft
      · exact .account q (hother q hq hq') henabled hqPassword (hlinks.mpr hlink)
    | code q hq henabled hqEmail hotp haddress =>
      obtain rfl := db.providers.email_unique hq hbefore hqEmail hemail
      by_cases hkept : data.providerType = .email ∧ data.emailOtpEnabled = true
      · exact hcode hkept.1 hkept.2 haddress
      · rcases hsafe.codes hotp hkept u hu haddress with ⟨hdata, hpw, hlink⟩ | hleft
        · exact hpassword hdata hpw hlink
        · exact hserved hleft

end

end Saving

theorem saveAuthProviderFn_iff (hfresh : AuthOp.Fresh db (.save data newId checks))
    (h : saveAuthProviderFn db data newId checks = .ok db') (hall : EverybodyCanLogin db) :
    EverybodyCanLogin db' ↔ AuthOp.Careful db (.save data newId checks) := by
  have hsaved := saveAuthProviderFn_ok h
  by_cases hbefore : ∃ before ∈ db.providers.entries, data.id = some before.id ∧ before.enabled = true
  · obtain ⟨before, hmem, hid, henabled⟩ := hbefore
    rw [hid, Option.getD_some] at hsaved
    have honly : ∀ q ∈ db.providers.entries, data.id = some q.id → q = before := fun q hq hq' =>
      db.providers.id_inj hq hmem (Option.some.inj (hq'.symm.trans hid))
    cases hdata : data.enabled with
    | false =>
      have hcheck := (checkBefore_ok (hsaved.before before hmem hid)).2 henabled hdata
      refine ((hsaved.disabled hmem hdata).iff hmem hcheck hall).trans ⟨fun hsafe q hq hq' _ => ?_, fun hcareful => ?_⟩
      · rw [honly q hq hq']
        exact ⟨fun _ => hsafe, fun hon => absurd (hdata.symm.trans hon) Bool.false_ne_true⟩
      · exact (hcareful before hmem hid henabled).1 hdata
    | true =>
      cases htype : before.providerType with
      | social =>
        refine ⟨fun _ q hq hq' _ => ?_, fun _ => hsaved.social_everybody hmem hid hdata htype hall⟩
        rw [honly q hq hq', htype]
        exact ⟨fun hoff => absurd (hoff.symm.trans hdata) Bool.false_ne_true, fun _ => nofun⟩
      | email =>
        refine (hsaved.email_iff hmem hid hdata htype hall).trans ⟨fun hsafe q hq hq' _ => ?_, fun hcareful => ?_⟩
        · rw [honly q hq hq']
          exact ⟨fun hoff => absurd (hoff.symm.trans hdata) Bool.false_ne_true, fun _ _ => hsafe⟩
        · exact (hcareful before hmem hid henabled).2 hdata htype
  · -- nothing that was enabled is replaced
    have hkept : ∀ q ∈ db.providers.entries, q.enabled = true → q ∈ db'.providers.entries := by
      intro q hq henabled
      refine hsaved.keeps hq fun heq => ?_
      cases hid : data.id with
      | none =>
        rw [hid, Option.getD_none] at heq
        exact hfresh hid q hq heq
      | some id =>
        rw [hid, Option.getD_some] at heq
        exact hbefore ⟨q, hq, hid.trans (congrArg some heq.symm), henabled⟩
    refine ⟨fun _ q hq hid henabled => absurd ⟨q, hq, hid, henabled⟩ hbefore, fun _ => ?_⟩
    exact everybody_of_keeps hall hsaved.users hsaved.accounts fun q hq henabled =>
      ⟨fun _ _ _ => hkept q hq henabled, fun _ => hkept q hq henabled⟩

/-! ## Deleting and unlinking -/

theorem deleteAuthProviderFn_everybody (h : deleteAuthProviderFn db id = .ok db')
    (hall : EverybodyCanLogin db) : EverybodyCanLogin db' := by
  unfold deleteAuthProviderFn at h
  split at h
  · cases h
  rename_i p hfind
  obtain ⟨hp, rfl⟩ := db.providers.find hfind
  split at h
  · cases h
  rename_i hprotected
  split at h
  · cases h
  rename_i hunused
  obtain rfl := ok.inj h
  have hkept : ∀ q ∈ db.providers.entries, q ≠ p → q ∈ (db.providers.delete p.id).entries := by
    intro q hq hne
    exact mem_filter.mpr ⟨hq, bne_iff_ne.mpr fun hid => hne (db.providers.id_inj hq hp hid)⟩
  refine everybody_of_keeps hall rfl rfl fun q hq _ => ⟨fun _ u hlink => hkept q hq ?_, fun hemail => hkept q hq ?_⟩
  · rintro rfl
    obtain ⟨a, ha, -, hprovider⟩ := hlink
    exact hunused (any_eq_true.mpr ⟨a, ha, beq_iff_eq.mpr hprovider⟩)
  · rintro rfl
    exact hprotected (db.providers.email q hq hemail)

section Unlinking

variable {db db' : AuthDb} {input : UnlinkInput} {removed : Id}

structure Unlinked (db db' : AuthDb) (input : UnlinkInput) (removed : Id) : Prop where
  users : db'.users = db.users
  providers : db'.providers = db.providers
  accounts : ∀ a, a ∈ db'.accounts.rows ↔ a ∈ db.accounts.rows ∧ ¬ (input.names a = true ∧ a.id = removed)
  check : assertAccountCanBeUnlinked db input = .ok ()

theorem unlinkAccount_ok (h : unlinkAccount db input removed = .ok db') : Unlinked db db' input removed := by
  obtain ⟨⟨⟩, hcheck, h⟩ := bind_ok h
  split at h
  · rename_i n db₂ hdelete
    obtain rfl := ok.inj h
    obtain ⟨-, t, hrows, rfl⟩ := Stmt.delete_ok hdelete
    refine ⟨rfl, rfl, fun a => ?_, hcheck⟩
    show a ∈ t.rows ↔ _
    rw [hrows, mem_filter, Bool.not_eq_true', ← Bool.not_eq_true, Bool.and_eq_true, beq_iff_eq]
    rfl
  · cases h

theorem UnlinkInput.names_iff : input.names a = true ↔
    a.userId = input.userId ∧ a.providerId = input.providerId ∧ (input.accountId.all fun id => a.accountId == id) := by
  rw [names, Bool.and_eq_true, Bool.and_eq_true, beq_iff_eq, beq_iff_eq, and_assoc]

theorem canBeUnlinked_alternative (h : assertAccountCanBeUnlinked db input = .ok ()) {r : AuthAccount}
    (hr : r ∈ db.accounts.rows) (hnames : input.names r = true) :
    (∃ t ∈ db.accounts.rows, input.names t = true ∧ ∃ a ∈ db.accounts.rows, a.userId = input.userId ∧ a.id ≠ t.id ∧
      ∃ q ∈ db.providers.entries, q.enabled = true ∧ q.providerId = a.providerId) ∨
      ∃ user, db.users.get? input.userId = some user ∧
        codeReaches (enabledEmail db.providers.entries) user.email = true := by
  unfold assertAccountCanBeUnlinked at h
  split at h
  · rename_i hnone
    exact absurd hnames (find?_eq_none.mp hnone r hr)
  rename_i t hfind
  simp only at h
  split at h
  · cases h
  rename_i hkept
  rw [Bool.and_eq_true, Bool.not_eq_true', Bool.not_eq_true', not_and_or, Bool.not_eq_false, Bool.not_eq_false] at hkept
  rcases hkept with haccount | hcode
  · obtain ⟨a, ha, henabled⟩ := any_eq_true.mp haccount
    rw [mem_filter, Bool.and_eq_true, beq_iff_eq, bne_iff_ne] at ha
    obtain ⟨q, hq, hid⟩ := mem_map.mp (contains_iff_mem.mp henabled)
    rw [mem_filter] at hq
    exact .inl ⟨t, mem_of_find?_eq_some hfind, find?_some hfind, a, ha.1, ha.2.1, ha.2.2, q, hq.1, hq.2, hid⟩
  · obtain ⟨user, huser, hreaches⟩ := (Option.any_eq_true ..).mp hcode
    exact .inr ⟨user, huser, hreaches⟩

section

variable (h : Unlinked db db' input removed)
include h

theorem Unlinked.account (hq : q ∈ db.providers.entries) (henabled : q.enabled = true)
    (hpassword : q.providerType = .email → q.passwordLoginEnabled = true) (ha : a ∈ db.accounts.rows)
    (huser : a.userId = u.id) (hprovider : a.providerId = q.providerId)
    (hstays : ¬ (input.names a = true ∧ a.id = removed)) : LoginMethod db' u := by
  refine .account q (h.providers ▸ hq) henabled hpassword ⟨a, (h.accounts a).mpr ⟨ha, hstays⟩, huser, hprovider⟩

theorem Unlinked.everybody (hall : EverybodyCanLogin db) (hsafe : UnlinkSafe db input removed) :
    EverybodyCanLogin db' := by
  intro u hu
  rw [h.users] at hu
  have hcode : ∀ e ∈ db.providers.entries, e.enabled = true → e.providerType = .email → e.emailOtpEnabled = true →
      isInternalIdentityEmail u.email = false → LoginMethod db' u := fun e he henabled hemail hotp haddress =>
    .code e (h.providers ▸ he) henabled hemail hotp haddress
  cases hall u hu with
  | code e he henabled hemail hotp haddress => exact hcode e he henabled hemail hotp haddress
  | account p hp henabled hpassword hlink =>
    obtain ⟨r, hr, huser, hprovider⟩ := hlink
    by_cases hstays : input.names r = true ∧ r.id = removed
    swap
    · exact h.account hp henabled hpassword hr huser hprovider hstays
    obtain ⟨hnames, hid⟩ := hstays
    have huserId : u.id = input.userId := huser.symm.trans ((UnlinkInput.names_iff).mp hnames).1
    rcases canBeUnlinked_alternative h.check hr hnames with
      ⟨t, ht, htNames, a, ha, haUser, hne, q, hq, hqEnabled, hqProvider⟩ | ⟨user, hget, hreaches⟩
    · by_cases hremoved : input.names a = true ∧ a.id = removed
      · -- the account that the check found is the one that stays
        obtain ⟨htUser, htProvider, -⟩ := (UnlinkInput.names_iff).mp htNames
        refine h.account hp henabled hpassword ht (htUser.trans huserId.symm) ?_ fun hboth =>
          hne (hremoved.2.trans hboth.2.symm)
        rw [htProvider, ← hprovider, ((UnlinkInput.names_iff).mp hnames).2.1]
      · by_cases hworks : q.providerType = .email → q.passwordLoginEnabled = true
        · exact h.account hq hqEnabled hworks ha (haUser.trans huserId.symm) hqProvider.symm hremoved
        · obtain ⟨hqEmail, hqPassword⟩ := Classical.not_imp.mp hworks
          rcases hsafe q hq hqEnabled hqEmail (eq_false_of_ne_true hqPassword) r hr hnames hid u hu huserId with
            ⟨hotp, haddress⟩ | ⟨q', hq', hqEnabled', hqSocial, a', ha', hne', haUser', hprovider'⟩
          · exact hcode q hq hqEnabled hqEmail hotp haddress
          · refine h.account hq' hqEnabled' (fun hemail => ?_) ha' haUser' hprovider' fun hboth => hne' hboth.2
            rw [hqSocial] at hemail
            cases hemail
    · have hfound : db.users.get? u.id = some u := mem_get? hu
      rw [← huserId, hfound] at hget
      obtain rfl := Option.some.inj hget
      obtain ⟨e, he, heEnabled, hemail, hotp, haddress⟩ := codeReaches_some hreaches
      exact hcode e he heEnabled hemail hotp haddress

theorem Unlinked.safe (hall : EverybodyCanLogin db') : UnlinkSafe db input removed := by
  intro e he henabled hemail hpassword r hr hnames hid u hu huserId
  cases hall u (h.users ▸ hu) with
  | code q hq hqEnabled hqEmail hotp haddress =>
    rw [h.providers] at hq
    obtain rfl := db.providers.email_unique hq he hqEmail hemail
    exact .inl ⟨hotp, haddress⟩
  | account q hq hqEnabled hqPassword hlink =>
    obtain ⟨a, ha, haUser, haProvider⟩ := hlink
    rw [h.providers] at hq
    obtain ⟨ha, hstays⟩ := (h.accounts a).mp ha
    refine .inr ⟨q, hq, hqEnabled, ?_, a, ha, fun haid => ?_, haUser, haProvider⟩
    · cases hqType : q.providerType with
      | social => rfl
      | email =>
        obtain rfl := db.providers.email_unique hq he hqType hemail
        rw [hqPassword hqType] at hpassword
        cases hpassword
    · obtain rfl : a = r := eq_of_key ha hr (haid.trans hid.symm)
      exact hstays ⟨hnames, haid⟩

end

theorem unlinkAccount_iff (h : unlinkAccount db input removed = .ok db') (hall : EverybodyCanLogin db) :
    EverybodyCanLogin db' ↔ AuthOp.Careful db (.unlink input removed) :=
  ⟨(unlinkAccount_ok h).safe, (unlinkAccount_ok h).everybody hall⟩

end Unlinking

/-! ## Runs -/

/-- An operation that is accepted in `db` leads to `db'`. -/
def AuthOp.Accepted (op : AuthOp) (db db' : AuthDb) : Prop := op.Fresh db ∧ op.run db = .ok db'

theorem AuthOp.Accepted.iff {op : AuthOp} (h : op.Accepted db db') (hall : EverybodyCanLogin db) :
    EverybodyCanLogin db' ↔ op.Careful db := by
  obtain ⟨hfresh, hrun⟩ := h
  cases op with
  | setEnabled id enabled checks => exact setAuthProviderEnabledFn_iff hrun hall
  | save data newId checks => exact saveAuthProviderFn_iff hfresh hrun hall
  | delete id => exact iff_of_true (deleteAuthProviderFn_everybody hrun hall) trivial
  | unlink input removed => exact unlinkAccount_iff hrun hall

def CarefulRun : AuthDb → AuthDb → Prop :=
  Relation.ReflTransGen fun db db' => ∃ op : AuthOp, op.Accepted db db' ∧ op.Careful db

theorem CarefulRun.everybody (h : CarefulRun db db') (hall : EverybodyCanLogin db) : EverybodyCanLogin db' := by
  induction h with
  | refl => exact hall
  | tail _ hstep ih =>
    obtain ⟨op, haccepted, hcareful⟩ := hstep
    exact (haccepted.iff ih).mpr hcareful

/-- Careful operations lock nobody out, and behind them the first one that is not careful locks somebody out. -/
theorem nobody_locked_out {db db' : AuthDb} (hall : EverybodyCanLogin db) (h : CarefulRun db db') :
    EverybodyCanLogin db' ∧ ∀ (op : AuthOp) (db'' : AuthDb), op.Accepted db' db'' →
      (EverybodyCanLogin db'' ↔ op.Careful db') :=
  ⟨h.everybody hall, fun _ _ haccepted => haccepted.iff (h.everybody hall)⟩

def passwordDb (email : StoredProviders) : AuthDb where
  providers := email
  accounts := Table.of [⟨1, "1", "credential", 1⟩]
  users := Table.of [⟨1, ascii "customer@example.com"⟩]

theorem passwordDb_everybody (p : StoredAuthProvider) (hp : p ∈ s.entries)
    (hprovider : p.providerId = "credential") (henabled : p.enabled = true)
    (hpassword : p.passwordLoginEnabled = true) : EverybodyCanLogin (passwordDb s) := by
  intro u hu
  obtain rfl := mem_singleton.mp hu
  exact .account p hp henabled (fun _ => hpassword) ⟨_, mem_singleton.mpr rfl, rfl, hprovider.symm⟩

/-- A social provider is added to a new shop. -/
theorem nobody_locked_out_social :
    ∃ db' : AuthDb, CarefulRun (passwordDb initialStoredAuthProviders) db' ∧ EverybodyCanLogin db' ∧
      ∀ (op : AuthOp) (db'' : AuthDb), op.Accepted db' db'' → (EverybodyCanLogin db'' ↔ op.Careful db') := by
  let google : AuthOp := .save { providerId := "google", providerType := .social, enabled := true } 1 (.ok ())
  have hrun : ∃ db', google.Accepted (passwordDb initialStoredAuthProviders) db' :=
    ⟨_, fun _ p hp => by rw [mem_singleton.mp hp]; decide, rfl⟩
  obtain ⟨db', haccepted⟩ := hrun
  have hcareful : google.Careful (passwordDb initialStoredAuthProviders) := fun _ _ => nofun
  have h : CarefulRun (passwordDb initialStoredAuthProviders) db' := .single ⟨google, haccepted, hcareful⟩
  exact ⟨db', h, nobody_locked_out (passwordDb_everybody _ (mem_singleton.mpr rfl) rfl rfl rfl) h⟩

def codesProviders : StoredProviders where
  entries := [⟨0, "credential", .email, true, true, true, 10⟩]
  listed := by decide
  email := by decide

/-- The only provider can be switched off: the check counts its own codes. -/
theorem not_nobody_locked_out : ¬ ∀ (db db' : AuthDb), EverybodyCanLogin db →
      Relation.ReflTransGen (fun db db' => ∃ op : AuthOp, op.Accepted db db') db db' → EverybodyCanLogin db' := by
  intro h
  have hrun : ∃ db', AuthOp.Accepted (.setEnabled 0 false (.ok ())) (passwordDb codesProviders) db' ∧
      db'.users = (passwordDb codesProviders).users ∧ ∀ p ∈ db'.providers.entries, p.enabled = false :=
    ⟨{ passwordDb codesProviders with providers := codesProviders.setEnabled 0 false }, ⟨trivial, by rfl⟩, rfl,
      by decide⟩
  obtain ⟨db', haccepted, husers, hoff⟩ := hrun
  have hall := h _ db' (passwordDb_everybody _ (mem_singleton.mpr rfl) rfl rfl rfl) (.single ⟨_, haccepted⟩)
  have hu : ⟨1, ascii "customer@example.com"⟩ ∈ db'.users.rows := by
    rw [husers]
    exact mem_singleton.mpr rfl
  cases hall _ hu with
  | account p hp henabled => exact Bool.false_ne_true ((hoff p hp).symm.trans henabled)
  | code p hp henabled => exact Bool.false_ne_true ((hoff p hp).symm.trans henabled)

end Gmshop
